import VoxelScout.Json.Quoted
import VoxelScout.Proofs.Text.Utf8

/-! # Text between quotes

Which texts may stand between quotes, and what becomes of them: a scanner takes exactly
these, reading undoes writing, and escaping the hazards of such a text leaves what it
stands for.
-/

namespace VoxelScout.Json

open Text (Letter chars)

/-! ## Hexadecimal escapes -/

theorem isHazard_iff {c : Char} :
    isHazard c = true ↔ c = '<' ∨ c = '>' ∨ c = '&' ∨ c = '\u2028' ∨ c = '\u2029' := by
  have hline : c.toNat = 0x2028 ↔ c = '\u2028' := Char.toNat_inj (d := '\u2028')
  have hparagraph : c.toNat = 0x2029 ↔ c = '\u2029' := Char.toNat_inj (d := '\u2029')
  simp [isHazard, hline, hparagraph, or_assoc]

theorem hexValue?_of_isHazard {c : Char} (h : isHazard c = true) : Text.hexValue? c = none := by
  rcases isHazard_iff.mp h with rfl | rfl | rfl | rfl | rfl <;> decide

theorem shortEscape?_of_isHazard {c : Char} (h : isHazard c = true) : shortEscape? c = none := by
  rcases isHazard_iff.mp h with rfl | rfl | rfl | rfl | rfl <;> decide

theorem toNat_lt_of_isHazard {c : Char} (h : isHazard c = true) : c.toNat < 0xD800 := by
  rcases isHazard_iff.mp h with rfl | rfl | rfl | rfl | rfl <;> decide

theorem hexValue?_hexDigit {n : Nat} (h : n < 16) :
    Text.hexValue? (Text.hexDigit n) = some n := by
  have hall : ∀ k : Fin 16, Text.hexValue? (Text.hexDigit k) = some k.val := by decide
  exact hall ⟨n, h⟩

theorem unit?_hexUnit {n : Nat} (h : n < 65536) :
    unit? (Text.hexDigit (n / 4096 % 16)) (Text.hexDigit (n / 256 % 16))
      (Text.hexDigit (n / 16 % 16)) (Text.hexDigit (n % 16)) = some n := by
  simp only [unit?, hexValue?_hexDigit (Nat.mod_lt _ (by decide : 16 > 0))]
  show some (n / 4096 % 16 * 4096 + n / 256 % 16 * 256 + n / 16 % 16 * 16 + n % 16) = some n
  congr 1
  omega

theorem unit?_isSome {a b c d : Char} (h : (unit? a b c d).isSome = true) :
    (Text.hexValue? a).isSome = true ∧ (Text.hexValue? b).isSome = true ∧
      (Text.hexValue? c).isSome = true ∧ (Text.hexValue? d).isSome = true := by
  unfold unit? at h
  cases ha : Text.hexValue? a <;> cases hb : Text.hexValue? b <;> cases hc : Text.hexValue? c <;>
    cases hd : Text.hexValue? d <;> simp_all

theorem not_isHazard_of_hexValue? {c : Char} (h : (Text.hexValue? c).isSome = true) :
    isHazard c = false := by
  cases hhazard : isHazard c with
  | false => rfl
  | true =>
      rw [hexValue?_of_isHazard hhazard] at h
      cases h

theorem not_isHazard_of_shortEscape? {e : Char} (h : (shortEscape? e).isSome = true) :
    isHazard e = false := by
  cases hhazard : isHazard e with
  | false => rfl
  | true =>
      rw [shortEscape?_of_isHazard hhazard] at h
      cases h

theorem not_isHazard_hexDigit (n : Nat) : isHazard (Text.hexDigit (n % 16)) = false :=
  not_isHazard_of_hexValue? (by rw [hexValue?_hexDigit (Nat.mod_lt n (by decide))]; rfl)

/-! ## What may stand between quotes -/

/-- Text that may stand between quotes: escapes by number, short escapes, and letters that
stand for themselves. -/
inductive Quotable : List Letter → Prop where
  | nil : Quotable []
  | unit {a b c d : Char} {rest : List Letter} (h : (unit? a b c d).isSome = true) :
      Quotable rest → Quotable (chars ['\\', 'u', a, b, c, d] ++ rest)
  | short {e : Char} {rest : List Letter} (h : (shortEscape? e).isSome = true) :
      Quotable rest → Quotable (chars ['\\', e] ++ rest)
  | plain {l : Letter} {rest : List Letter} (hquote : l.read ≠ '"') (hslash : l.read ≠ '\\')
      (hcontrol : 0x20 ≤ l.read.toNat) : Quotable rest → Quotable (l :: rest)

theorem ne_u_of_shortEscape? {e : Char} (h : (shortEscape? e).isSome = true) : e ≠ 'u' := by
  rintro rfl
  exact absurd h (by decide)

theorem scanQuoted_short {e : Char} (h : (shortEscape? e).isSome = true) (rest : List Letter) :
    scanQuoted (chars ['\\', e] ++ rest) =
      (scanQuoted rest).map fun (source, after) => (chars ['\\', e] ++ source, after) := by
  show scanQuoted (.char '\\' :: .char e :: rest) = _
  rw [scanQuoted, if_pos h]
  exact fun _ _ _ _ _ _ => ne_u_of_shortEscape? h

theorem scanQuoted_plain {l : Letter} (hquote : l.read ≠ '"') (hslash : l.read ≠ '\\')
    (hcontrol : 0x20 ≤ l.read.toNat) (rest : List Letter) :
    scanQuoted (l :: rest) =
      (scanQuoted rest).map fun (source, after) => (l :: source, after) := by
  have hgood : (decide (l.read.toNat < 0x20) || l.read == '\\') = false := by
    simp [hslash, hcontrol]
  rw [scanQuoted, hgood]
  · rfl
  · rintro rfl
    exact hquote rfl
  · rintro a b c d more rfl
    exact absurd rfl hslash
  · rintro e more rfl
    exact absurd rfl hslash

theorem Quotable.scanQuoted_append {source : List Letter} (h : Quotable source)
    (rest : List Letter) : scanQuoted (source ++ .char '"' :: rest) = some (source, rest) := by
  induction h with
  | nil => rfl
  | @unit a b c d more hunit _ ih =>
      obtain ⟨n, hn⟩ := Option.isSome_iff_exists.mp hunit
      simp [chars, scanQuoted, hn, ih]
  | short hshort _ ih =>
      rw [List.append_assoc, scanQuoted_short hshort, ih]
      rfl
  | plain hquote hslash hcontrol _ ih =>
      rw [List.cons_append, scanQuoted_plain hquote hslash hcontrol, ih]
      rfl

/-- What is taken is the text up to the closing quote. -/
theorem of_scanQuoted {ls source after : List Letter}
    (h : scanQuoted ls = some (source, after)) :
    Quotable source ∧ ls = source ++ .char '"' :: after := by
  fun_induction scanQuoted ls generalizing source with
  | case1 => cases h
  | case2 rest =>
      cases h
      exact ⟨.nil, rfl⟩
  | case3 a b c d rest hunit => cases h
  | case4 a b c d rest n hunit ih =>
      obtain ⟨⟨source', after'⟩, hrest, heq⟩ := Option.map_eq_some_iff.mp h
      cases heq
      obtain ⟨hquotable, rfl⟩ := ih hrest
      exact ⟨.unit (by simp [hunit]) hquotable, rfl⟩
  | case5 e rest hlong hshort ih =>
      obtain ⟨⟨source', after'⟩, hrest, heq⟩ := Option.map_eq_some_iff.mp h
      cases heq
      obtain ⟨hquotable, rfl⟩ := ih hrest
      exact ⟨.short hshort hquotable, rfl⟩
  | case6 e rest hlong hshort => cases h
  | case7 l rest hquote _ _ hbad => cases h
  | case8 l rest hquote _ _ hgood ih =>
      obtain ⟨⟨source', after'⟩, hrest, heq⟩ := Option.map_eq_some_iff.mp h
      cases heq
      obtain ⟨hquotable, rfl⟩ := ih hrest
      simp only [Bool.or_eq_true, decide_eq_true_eq, beq_iff_eq, not_or, Nat.not_lt] at hgood
      have hread : l.read ≠ '"' := by
        cases l with
        | char c => exact fun hc => hquote (congrArg Letter.char hc)
        | stray b => exact (by decide : Text.replacement ≠ '"')
      exact ⟨.plain hread hgood.2 hgood.1 hquotable, rfl⟩

/-! ## Reading escapes -/

theorem unescapeFrom_short {e : Char} (h : (shortEscape? e).isSome = true) (pending : Option Nat)
    (rest : List Letter) :
    unescapeFrom pending (chars ['\\', e] ++ rest) =
      (shortEscape? e).getD e :: unescapeFrom none rest := by
  show unescapeFrom pending (.char '\\' :: .char e :: rest) = _
  rw [unescapeFrom]
  exact fun _ _ _ _ _ _ => ne_u_of_shortEscape? h

theorem unescapeFrom_plain {l : Letter} (h : l.read ≠ '\\') (pending : Option Nat)
    (rest : List Letter) :
    unescapeFrom pending (l :: rest) = l.read :: unescapeFrom none rest := by
  rw [unescapeFrom]
  · rintro a b c d more rfl
    exact absurd rfl h
  · rintro e more rfl
    exact absurd rfl h

theorem unescapeFrom_escapeUnit {n : Nat} (hn : n < 0xD800) (rest : List Letter) :
    unescapeFrom none (chars (escapeUnit n) ++ rest) = Char.ofNat n :: unescapeFrom none rest := by
  have hunit := unit?_hexUnit (show n < 65536 by omega)
  have hhigh : isHighHalf n = false := by simp [isHighHalf]; omega
  have hlow : isLowHalf n = false := by simp [isLowHalf]; omega
  simp [chars, escapeUnit, hexUnit, unescapeFrom, hunit, hhigh, hlow, unitChar]

/-! ## Writing and reading -/

/-- The three written forms of a character. -/
theorem escapeChar_cases (c : Char) :
    (∃ e, escapeChar c = ['\\', e] ∧ shortEscape? e = some c) ∨
      (escapeChar c = escapeUnit c.toNat ∧ c.toNat < 0xD800) ∨
      (escapeChar c = [c] ∧ c ≠ '"' ∧ c ≠ '\\' ∧ 0x20 ≤ c.toNat ∧ isHazard c = false) := by
  by_cases hshort : c = '"' ∨ c = '\\' ∨ c = '\x08' ∨ c = '\x0c' ∨ c = '\n' ∨ c = '\r' ∨ c = '\t'
  · left
    rcases hshort with rfl | rfl | rfl | rfl | rfl | rfl | rfl
    · exact ⟨'"', rfl, rfl⟩
    · exact ⟨'\\', rfl, rfl⟩
    · exact ⟨'b', rfl, rfl⟩
    · exact ⟨'f', rfl, rfl⟩
    · exact ⟨'n', rfl, rfl⟩
    · exact ⟨'r', rfl, rfl⟩
    · exact ⟨'t', rfl, rfl⟩
  · right
    have hback : c.toNat = 8 ↔ c = '\x08' := Char.toNat_inj (d := '\x08')
    have hfeed : c.toNat = 12 ↔ c = '\x0c' := Char.toNat_inj (d := '\x0c')
    have hescape : escapeChar c =
        if c.toNat < 0x20 || isHazard c then escapeUnit c.toNat else [c] := by
      simp_all [escapeChar]
    by_cases hunit : c.toNat < 0x20 ∨ isHazard c = true
    · refine .inl ⟨by simp_all, ?_⟩
      rcases hunit with hcontrol | hhazard
      · omega
      · exact toNat_lt_of_isHazard hhazard
    · right
      simp_all

theorem unescapeFrom_escapeChar (c : Char) (rest : List Letter) :
    unescapeFrom none (chars (escapeChar c) ++ rest) = c :: unescapeFrom none rest := by
  rcases escapeChar_cases c with ⟨e, hescape, hshort⟩ | ⟨hescape, hn⟩ | ⟨hescape, -, hslash, -⟩
  · rw [hescape, unescapeFrom_short (by simp [hshort]), hshort]
    rfl
  · rw [hescape, unescapeFrom_escapeUnit hn, Char.ofNat_toNat]
  · rw [hescape]
    exact unescapeFrom_plain (l := .char c) hslash none rest

theorem chars_escape_cons (c : Char) (cs : List Char) :
    chars (escape (c :: cs)) = chars (escapeChar c) ++ chars (escape cs) :=
  List.map_append

theorem unescape_escape (cs : List Char) : unescape (chars (escape cs)) = cs := by
  unfold unescape
  induction cs with
  | nil => rfl
  | cons c rest ih => rw [chars_escape_cons, unescapeFrom_escapeChar, ih]

theorem quotable_escapeUnit {n : Nat} (hn : n < 0xD800) {rest : List Letter} (h : Quotable rest) :
    Quotable (chars (escapeUnit n) ++ rest) :=
  .unit (by rw [unit?_hexUnit (by omega)]; rfl) h

theorem quotable_escape (cs : List Char) : Quotable (chars (escape cs)) := by
  induction cs with
  | nil => exact .nil
  | cons c rest ih =>
      rw [chars_escape_cons]
      rcases escapeChar_cases c with
        ⟨e, hescape, hshort⟩ | ⟨hescape, hn⟩ | ⟨hescape, hquote, hslash, hcontrol, -⟩
      · rw [hescape]
        exact .short (by simp [hshort]) ih
      · rw [hescape]
        exact quotable_escapeUnit hn ih
      · rw [hescape]
        exact .plain (l := .char c) hquote hslash hcontrol ih

/-! ## Hazards -/

def Harmless (ls : List Letter) : Prop :=
  ∀ l ∈ ls, isHazard l.read = false

theorem harmless_chars_backslash {rest : List Char} (h : ∀ c ∈ rest, isHazard c = false) :
    Harmless (chars ('\\' :: rest)) :=
  List.forall_mem_map.mpr (List.forall_mem_cons.mpr ⟨rfl, h⟩)

theorem harmless_escapeUnit (n : Nat) : Harmless (chars (escapeUnit n)) := by
  have hu : isHazard 'u' = false := rfl
  exact harmless_chars_backslash (by simp [hexUnit, hu, not_isHazard_hexDigit])

/-- What a stray byte is read as is no hazard. -/
theorem exists_char_of_isHazard {l : Letter} (h : isHazard l.read = true) : ∃ c, l = .char c := by
  cases l with
  | char c => exact ⟨c, rfl⟩
  | stray b => exact absurd h (by decide : ¬isHazard Text.replacement = true)

theorem harden_cons_of_isHazard {l : Letter} (h : isHazard l.read = true) (rest : List Letter) :
    harden (l :: rest) = chars (escapeUnit l.read.toNat) ++ harden rest := by
  obtain ⟨c, rfl⟩ := exists_char_of_isHazard h
  have hc : isHazard c = true := h
  simp [harden, hardenLetter, Letter.read, hc]

theorem harden_cons_of_not {l : Letter} (h : isHazard l.read = false) (rest : List Letter) :
    harden (l :: rest) = l :: harden rest := by
  cases l with
  | char c =>
      have hc : isHazard c = false := h
      simp [harden, hardenLetter, chars, hc]
  | stray b => rfl

theorem Harmless.harden_eq {ls : List Letter} (h : Harmless ls) : harden ls = ls := by
  induction ls with
  | nil => rfl
  | cons l rest ih =>
      rw [harden_cons_of_not (h l List.mem_cons_self),
        ih fun m hm => h m (List.mem_cons_of_mem l hm)]

theorem harmless_harden (ls : List Letter) : Harmless (harden ls) := by
  induction ls with
  | nil => exact fun l hl => absurd hl List.not_mem_nil
  | cons l rest ih =>
      cases hhazard : isHazard l.read with
      | false =>
          rw [harden_cons_of_not hhazard]
          exact List.forall_mem_cons.mpr ⟨hhazard, ih⟩
      | true =>
          rw [harden_cons_of_isHazard hhazard]
          exact List.forall_mem_append.mpr ⟨harmless_escapeUnit _, ih⟩

theorem harden_append (a d : List Letter) : harden (a ++ d) = harden a ++ harden d :=
  List.flatMap_append

/-- An escape by number has no hazards, so it is left as it stands. -/
theorem harden_unit {a b c d : Char} (h : (unit? a b c d).isSome = true) (rest : List Letter) :
    harden (chars ['\\', 'u', a, b, c, d] ++ rest) =
      chars ['\\', 'u', a, b, c, d] ++ harden rest := by
  obtain ⟨ha, hb, hc, hd⟩ := unit?_isSome h
  have hu : isHazard 'u' = false := rfl
  have hharmless : Harmless (chars ['\\', 'u', a, b, c, d]) :=
    harmless_chars_backslash (by
      simp [hu, not_isHazard_of_hexValue? ha, not_isHazard_of_hexValue? hb,
        not_isHazard_of_hexValue? hc, not_isHazard_of_hexValue? hd])
  rw [harden_append, hharmless.harden_eq]

theorem harden_short {e : Char} (h : (shortEscape? e).isSome = true) (rest : List Letter) :
    harden (chars ['\\', e] ++ rest) = chars ['\\', e] ++ harden rest := by
  have hharmless : Harmless (chars ['\\', e]) :=
    harmless_chars_backslash (by simp [not_isHazard_of_shortEscape? h])
  rw [harden_append, hharmless.harden_eq]

theorem Quotable.harden {source : List Letter} (h : Quotable source) :
    Quotable (Json.harden source) := by
  induction h with
  | nil => exact .nil
  | unit hunit _ ih =>
      rw [harden_unit hunit]
      exact .unit hunit ih
  | short hshort _ ih =>
      rw [harden_short hshort]
      exact .short hshort ih
  | @plain l rest hquote hslash hcontrol _ ih =>
      cases hhazard : isHazard l.read with
      | false =>
          rw [harden_cons_of_not hhazard]
          exact .plain hquote hslash hcontrol ih
      | true =>
          rw [harden_cons_of_isHazard hhazard]
          exact quotable_escapeUnit (toNat_lt_of_isHazard hhazard) ih

/-- Escapes are characters, so they do not join stray bytes on their two sides. -/
theorem settled_append_harden {a source : List Letter} (h : Text.Settled (a ++ source)) :
    Text.Settled (a ++ harden source) := by
  induction source generalizing a with
  | nil => exact h
  | cons l rest ih =>
      cases hhazard : isHazard l.read with
      | false =>
          rw [harden_cons_of_not hhazard, List.append_cons]
          rw [List.append_cons] at h
          exact ih h
      | true =>
          obtain ⟨c, rfl⟩ := exists_char_of_isHazard hhazard
          obtain ⟨ha, hrest⟩ := Text.settled_append_char.mp h
          rw [harden_cons_of_isHazard hhazard]
          exact Text.settled_append_char.mpr
            ⟨ha, (Text.settled_chars_append _).mpr (ih (a := []) hrest)⟩

theorem lowHalf?_escapeUnit {n : Nat} (hn : n < 0xD800) (rest : List Letter) :
    lowHalf? (chars (escapeUnit n) ++ rest) = none := by
  have hlow : isLowHalf n = false := by simp [isLowHalf]; omega
  simp [chars, escapeUnit, hexUnit, lowHalf?, unit?_hexUnit (show n < 65536 by omega),
    Option.filter, hlow]

theorem lowHalf?_plain {l : Letter} (h : l.read ≠ '\\') (rest : List Letter) :
    lowHalf? (l :: rest) = none := by
  unfold lowHalf?
  split
  · next heq =>
    obtain ⟨rfl, -⟩ := List.cons.inj heq
    exact absurd rfl h
  · rfl

theorem lowHalf?_harden {source : List Letter} (h : Quotable source) :
    lowHalf? (harden source) = lowHalf? source := by
  cases h with
  | nil => rfl
  | unit hunit _ => rw [harden_unit hunit]; rfl
  | @short e rest hshort _ =>
      have hu := ne_u_of_shortEscape? hshort
      rw [harden_short hshort]
      simp [chars, lowHalf?, hu]
  | @plain l rest hquote hslash hcontrol _ =>
      rw [lowHalf?_plain hslash]
      cases hhazard : isHazard l.read with
      | false => rw [harden_cons_of_not hhazard, lowHalf?_plain hslash]
      | true =>
          rw [harden_cons_of_isHazard hhazard, lowHalf?_escapeUnit (toNat_lt_of_isHazard hhazard)]

/-- Half of a pair is pending only while an escape comes next, and escapes have no hazards. -/
theorem unescapeFrom_harden {source : List Letter} (h : Quotable source) (pending : Option Nat)
    (hpending : pending = none ∨ (lowHalf? source).isSome = true) :
    unescapeFrom pending (harden source) = unescapeFrom pending source := by
  induction h generalizing pending with
  | nil => rfl
  | @unit a b c d rest hunit hrest ih =>
      rw [harden_unit hunit]
      simp only [chars, List.map_cons, List.map_nil, List.cons_append, List.nil_append]
      cases pending with
      | some high => simp only [unescapeFrom, ih none (.inl rfl)]
      | none =>
          simp only [unescapeFrom, lowHalf?_harden hrest]
          split
          · next hpair =>
            rw [ih _ (.inr (Bool.and_eq_true .. |>.mp hpair).2)]
          · rw [ih none (.inl rfl)]
  | short hshort _ ih =>
      rw [harden_short hshort, unescapeFrom_short hshort, unescapeFrom_short hshort,
        ih none (.inl rfl)]
  | @plain l rest hquote hslash hcontrol _ ih =>
      cases hhazard : isHazard l.read with
      | false =>
          rw [harden_cons_of_not hhazard, unescapeFrom_plain hslash, unescapeFrom_plain hslash,
            ih none (.inl rfl)]
      | true =>
          have hnone : pending = none := by simpa [lowHalf?_plain hslash] using hpending
          rw [hnone, harden_cons_of_isHazard hhazard,
            unescapeFrom_escapeUnit (toNat_lt_of_isHazard hhazard), Char.ofNat_toNat,
            unescapeFrom_plain hslash, ih none (.inl rfl)]

theorem unescape_harden {source : List Letter} (h : Quotable source) :
    unescape (harden source) = unescape source :=
  unescapeFrom_harden h none (.inl rfl)

end VoxelScout.Json
