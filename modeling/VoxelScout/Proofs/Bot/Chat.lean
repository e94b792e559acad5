import Mathlib
import VoxelScout.Bot

/-! # Saying a message

A message is said in lines that are full but for the last one, and nothing of it is lost: the i-th
line has the characters from the i-th multiple of the limit on. The host is given the lines in
their order until it refuses one.
-/

namespace VoxelScout

/-! ## Trimming -/

namespace Text

theorem not_blank_of_head? (cs : List Char) {c : Char}
    (h : (cs.dropWhile isBlank).head? = some c) : isBlank c = false := by
  have hhead := List.head?_dropWhile_not isBlank cs
  rwa [h] at hhead

/-- Trimming leaves out blanks at both ends. -/
theorem exists_trim (s : String) : ∃ before after : List Char,
    s.toList = before ++ (trim s).toList ++ after ∧ ∀ c ∈ before ++ after, isBlank c = true := by
  have hfront := List.takeWhile_append_dropWhile (p := isBlank) (l := s.toList)
  have hback := List.takeWhile_append_dropWhile (p := isBlank)
    (l := (s.toList.dropWhile isBlank).reverse)
  refine ⟨s.toList.takeWhile isBlank,
    ((s.toList.dropWhile isBlank).reverse.takeWhile isBlank).reverse, ?_, ?_⟩
  · rw [trim, String.toList_ofList, trimChars, List.append_assoc, ← List.reverse_append, hback,
      List.reverse_reverse, hfront]
  · intro c hc
    rcases List.mem_append.mp hc with hc | hc
    · exact List.mem_takeWhile_imp hc
    · exact List.mem_takeWhile_imp (List.mem_reverse.mp hc)

/-- Trimming leaves no blank at either end. -/
theorem trim_ends (s : String) {c : Char}
    (h : (trim s).toList.head? = some c ∨ (trim s).toList.getLast? = some c) :
    isBlank c = false := by
  rw [trim, String.toList_ofList, trimChars] at h
  rcases h with h | h
  · -- what is left begins where what was left in front does
    have hprefix : ((s.toList.dropWhile isBlank).reverse.dropWhile isBlank).reverse <+:
        s.toList.dropWhile isBlank := by
      rw [← List.reverse_suffix, List.reverse_reverse]
      exact List.dropWhile_suffix isBlank
    obtain ⟨after, hafter⟩ := hprefix
    refine not_blank_of_head? s.toList ?_
    rw [← hafter, List.head?_append, h, Option.some_or]
  · rw [List.getLast?_reverse] at h
    exact not_blank_of_head? _ h

end Text

/-! ## Lines -/

namespace Bot

variable {cs : List Char}

theorem chunks_of_le (h : cs.length ≤ chatLimit) : chunks cs = [cs] := by
  rw [chunks, if_pos h]

theorem chunks_of_lt (h : chatLimit < cs.length) :
    chunks cs = cs.take chatLimit :: chunks (cs.drop chatLimit) := by
  rw [chunks, if_neg h.not_ge]

theorem flatten_chunks (cs : List Char) : (chunks cs).flatten = cs := by
  induction cs using chunks.induct with
  | case1 cs h => rw [chunks_of_le h, List.flatten_singleton]
  | case2 cs h ih =>
      rw [chunks_of_lt (not_le.mp h), List.flatten_cons, ih, List.take_append_drop]

theorem lt_ceilDiv_iff {n i : ℕ} : i < n ⌈/⌉ chatLimit ↔ chatLimit * i < n := by
  rw [← not_le, ceilDiv_le_iff_le_mul (by decide), not_le]

theorem length_chunks (h : cs ≠ []) : (chunks cs).length = cs.length ⌈/⌉ chatLimit := by
  induction cs using chunks.induct with
  | case1 cs hle =>
      have hpos := List.length_pos_of_ne_nil h
      rw [chunks_of_le hle, List.length_singleton, Nat.ceilDiv_eq_add_pred_div]
      unfold chatLimit at *
      omega
  | case2 cs hlt ih =>
      have hlong := not_le.mp hlt
      have hrest : cs.drop chatLimit ≠ [] := by simpa using hlong
      rw [chunks_of_lt hlong, List.length_cons, ih hrest, List.length_drop,
        Nat.ceilDiv_eq_add_pred_div, Nat.ceilDiv_eq_add_pred_div]
      unfold chatLimit at *
      omega

theorem chunks_getElem? {i : ℕ} (h : i < (chunks cs).length) :
    (chunks cs)[i]? = some ((cs.drop (chatLimit * i)).take chatLimit) := by
  induction cs using chunks.induct generalizing i with
  | case1 cs hle =>
      rw [chunks_of_le hle] at h ⊢
      obtain rfl : i = 0 := by simpa using h
      rw [List.getElem?_cons_zero, Nat.mul_zero, List.drop_zero, List.take_of_length_le hle]
  | case2 cs hlt ih =>
      rw [chunks_of_lt (not_le.mp hlt)] at h ⊢
      cases i with
      | zero => rw [List.getElem?_cons_zero, Nat.mul_zero, List.drop_zero]
      | succ i =>
          rw [List.getElem?_cons_succ, ih (by simpa using h), List.drop_drop, Nat.mul_succ,
            Nat.add_comm chatLimit]

/-! ## The lines of a message -/

theorem chatLines_eq (message : String) :
    chatLines message =
      if (Text.trim message).toList = [] then []
      else (chunks (Text.trim message).toList).map String.ofList := by
  simp [chatLines, Text.trim]

theorem join_chatLines (message : String) : String.join (chatLines message) = Text.trim message := by
  rw [← String.toList_inj, String.toList_join, chatLines_eq]
  split
  · next hblank => rw [hblank, List.flatMap_nil]
  · have hlines (css : List (List Char)) :
        (css.map String.ofList).flatMap String.toList = css.flatten := by
      simp [List.flatMap_map, List.flatMap_id']
    rw [hlines, flatten_chunks]

theorem length_chatLines (message : String) :
    (chatLines message).length = (Text.trim message).length ⌈/⌉ chatLimit := by
  rw [chatLines_eq, ← String.length_toList]
  split
  · next hblank => simp [hblank]
  · next hsome => rw [List.length_map, length_chunks hsome]

theorem chatLines_getElem? {message : String} {i : ℕ} (h : i < (chatLines message).length) :
    (chatLines message)[i]? =
      some (String.ofList (((Text.trim message).toList.drop (chatLimit * i)).take chatLimit)) := by
  rw [chatLines_eq] at h ⊢
  split at h
  · exact absurd h (Nat.not_lt_zero i)
  · next hsome =>
      rw [if_neg hsome, List.getElem?_map, chunks_getElem? (by simpa using h), Option.map_some]

/-- The lines of a message are cut at the multiples of the limit. -/
structure Cut (text : String) (i : ℕ) (line : String) : Prop where
  toList : line.toList = (text.toList.drop (chatLimit * i)).take chatLimit
  start : chatLimit * i < text.length

theorem Cut.length {text line : String} {i : ℕ} (h : Cut text i line) :
    line.length = min chatLimit (text.length - chatLimit * i) := by
  rw [← String.length_toList, h.toList, List.length_take, List.length_drop, String.length_toList]

theorem Cut.length_mem {text line : String} {i : ℕ} (h : Cut text i line) :
    line.length ∈ Set.Icc 1 chatLimit := by
  have hstart := h.start
  rw [h.length]
  exact ⟨le_min (by decide) (by omega), min_le_left _ _⟩

/-- A line is full if another one is cut after it. -/
theorem Cut.length_of_lt {text line : String} {i : ℕ} (h : Cut text i line)
    (hmore : chatLimit * (i + 1) < text.length) : line.length = chatLimit := by
  rw [Nat.mul_succ] at hmore
  rw [h.length]
  exact min_eq_left (by omega)

theorem cut_of_chatLines {message line : String} {i : ℕ}
    (h : (chatLines message)[i]? = some line) : Cut (Text.trim message) i line := by
  obtain ⟨hi, -⟩ := List.getElem?_eq_some_iff.mp h
  rw [chatLines_getElem? hi, Option.some.injEq] at h
  rw [length_chatLines, lt_ceilDiv_iff] at hi
  exact ⟨by rw [← h, String.toList_ofList], hi⟩

end Bot

/-! ## Hosts that refuse -/

namespace Host

variable {σ α : Type}

def recording (host : Host σ α) : Host (σ × List (Command α)) α where
  carry s c := ((host.carry s.1 c).1, (host.carry s.1 c).2, s.2 ++ [c])

/-- The number of commands that are given: each one is if all before it are taken. -/
structure Reaches (host : Host σ α) (s : σ) (commands : List (Command α)) (k : ℕ) : Prop where
  le : k ≤ commands.length
  lt_iff : ∀ i < commands.length, i < k ↔
    ∀ j < i, ∀ c, commands[j]? = some c →
      host.accepts (host.sendAll s (commands.take j)) c = true

variable {host : Host σ α} {s : σ} {c : Command α} {rest : List (Command α)} {k : ℕ}

theorem sendUntilRefused_of_taken (h : host.accepts s c = true) :
    host.sendUntilRefused s (c :: rest) = host.sendUntilRefused (host.carry s c).2 rest := by
  rw [accepts] at h
  rw [sendUntilRefused]
  split
  · next hcarry => rw [hcarry]
  · next hcarry =>
      rw [hcarry] at h
      cases h

theorem sendUntilRefused_of_refused (h : host.accepts s c = false) :
    host.sendUntilRefused s (c :: rest) = (host.carry s c).2 := by
  rw [accepts] at h
  rw [sendUntilRefused]
  split
  · next hcarry =>
      rw [hcarry] at h
      cases h
  · next hcarry => rw [hcarry]

theorem Reaches.cons (h : host.Reaches (host.carry s c).2 rest k) (hc : host.accepts s c = true) :
    host.Reaches s (c :: rest) (k + 1) where
  le := Nat.succ_le_succ h.le
  lt_iff i hi := by
    cases i with
    | zero => simp
    | succ i =>
        rw [Nat.succ_lt_succ_iff, h.lt_iff i (Nat.lt_of_succ_lt_succ hi)]
        constructor
        · intro htaken j hj d hd
          cases j with
          | zero =>
              obtain rfl : c = d := by simpa using hd
              exact hc
          | succ j => exact htaken j (Nat.lt_of_succ_lt_succ hj) d hd
        · intro htaken j hj d hd
          exact htaken (j + 1) (Nat.succ_lt_succ hj) d hd

/-- The first command is given in any case, and none after it if it is refused. -/
theorem reaches_of_refused (hc : host.accepts s c = false) : host.Reaches s (c :: rest) 1 where
  le := Nat.succ_le_succ (Nat.zero_le _)
  lt_iff i _ := by
    cases i with
    | zero => simp
    | succ i =>
        refine ⟨fun h => absurd h (by omega), fun htaken => ?_⟩
        have hfirst : host.accepts s c = true := htaken 0 (Nat.succ_pos i) c rfl
        rw [hc] at hfirst
        cases hfirst

/-- Commands reach the host in their order, up to the first one that it refuses. -/
theorem exists_reaches (host : Host σ α) (s : σ) (commands log : List (Command α)) :
    ∃ k, host.Reaches s commands k ∧
      host.sendUntilRefused s commands = host.sendAll s (commands.take k) ∧
      host.recording.sendUntilRefused (s, log) commands =
        (host.sendAll s (commands.take k), log ++ commands.take k) := by
  induction commands generalizing s log with
  | nil => exact ⟨0, ⟨le_rfl, by simp⟩, rfl, by simp [sendUntilRefused, sendAll]⟩
  | cons c rest ih =>
      cases hc : host.accepts s c with
      | true =>
          obtain ⟨k, hreaches, hstate, hlog⟩ := ih (host.carry s c).2 (log ++ [c])
          refine ⟨k + 1, hreaches.cons hc, ?_, ?_⟩
          · rw [sendUntilRefused_of_taken hc, hstate]
            rfl
          · have hrecorded : host.recording.accepts (s, log) c = true := hc
            have hcarried : (host.recording.carry (s, log) c).2 = ((host.carry s c).2, log ++ [c]) :=
              rfl
            rw [sendUntilRefused_of_taken hrecorded, hcarried, hlog, List.append_assoc]
            rfl
      | false =>
          have hrecorded : host.recording.accepts (s, log) c = false := hc
          exact ⟨1, reaches_of_refused hc, sendUntilRefused_of_refused hc,
            sendUntilRefused_of_refused hrecorded⟩

end Host

/-! ## The whole message -/

namespace Bot

variable {σ α : Type}

/-- The lines of a message, put together, are the message without the blanks around it, cut at each
multiple of 256 characters and nowhere else. A host is given them in order, each one if it took all
before it. -/
theorem chat_says_lines (host : Host σ α) (s : σ) (log : List (Command α)) (message : String) :
    let text := Text.trim message
    let lines := chatLines message
    let commands : List (Command α) := lines.map .chat
    ((∃ before after : List Char, message.toList = before ++ text.toList ++ after ∧
        ∀ c ∈ before ++ after, Text.isBlank c = true) ∧
      ∀ c, text.toList.head? = some c ∨ text.toList.getLast? = some c → Text.isBlank c = false) ∧
    String.join lines = text ∧ lines.length = text.length ⌈/⌉ 256 ∧
    (∀ i line, lines[i]? = some line → line.toList = (text.toList.drop (256 * i)).take 256 ∧
      1 ≤ line.length ∧ line.length ≤ 256 ∧ (i + 1 < lines.length → line.length = 256)) ∧
    (∃ k ≤ lines.length,
      (∀ i < lines.length, i < k ↔ ∀ j < i, ∀ line, lines[j]? = some line →
        host.accepts (host.sendAll s (commands.take j)) (.chat line) = true) ∧
      chat (some host) s message = host.sendAll s (commands.take k) ∧
      chat (some host.recording) (s, log) message =
        (host.sendAll s (commands.take k), log ++ commands.take k)) ∧
    chat (none : Option (Host σ α)) s message = s := by
  intro text lines commands
  refine ⟨⟨Text.exists_trim message, fun c => Text.trim_ends message⟩, join_chatLines message,
    length_chatLines message, ?_, ?_, rfl⟩
  · intro i line hline
    have hcut := cut_of_chatLines hline
    refine ⟨hcut.toList, hcut.length_mem.1, hcut.length_mem.2, fun hmore => ?_⟩
    have hlonger : i + 1 < text.length ⌈/⌉ chatLimit := length_chatLines message ▸ hmore
    exact hcut.length_of_lt (lt_ceilDiv_iff.mp hlonger)
  · obtain ⟨k, hreaches, hstate, hlog⟩ := host.exists_reaches s commands log
    have hcommands : commands.length = lines.length := List.length_map _
    refine ⟨k, hcommands ▸ hreaches.le, fun i hi => ?_, hstate, hlog⟩
    rw [hreaches.lt_iff i (hcommands ▸ hi)]
    refine forall₂_congr fun j _ => ?_
    simp [commands, List.getElem?_map]

end Bot

end VoxelScout
