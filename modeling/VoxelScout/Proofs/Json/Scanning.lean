import Mathlib.Data.List.Chain
import Mathlib.Data.List.TakeWhile
import VoxelScout.Json
import VoxelScout.Proofs.Json.Quoting

/-! # Cutting text into tokens

Every token that a scan gives is spelled as the format asks, and a row of such tokens, in
which no number runs into what follows it, is cut again as it was put together.
-/

namespace VoxelScout.Json

open Text (Letter chars Settled)

/-! ## Numerals -/

def Digits (ds : List Char) : Prop :=
  ds ≠ [] ∧ ∀ c ∈ ds, isDigit c = true

def IsWhole (w : List Char) : Prop :=
  w = ['0'] ∨ Digits w ∧ w.head? ≠ some '0'

def IsFraction (f : List Char) : Prop :=
  f = [] ∨ ∃ ds, f = '.' :: ds ∧ Digits ds

def IsExponent (e : List Char) : Prop :=
  e = [] ∨ ∃ mark sign ds, e = mark :: (sign ++ ds) ∧ (mark = 'e' ∨ mark = 'E') ∧
    (sign = [] ∨ sign = ['+'] ∨ sign = ['-']) ∧ Digits ds

def Numeral (text : List Char) : Prop :=
  ∃ sign whole fraction exponent, text = sign ++ whole ++ fraction ++ exponent ∧
    (sign = [] ∨ sign = ['-']) ∧ IsWhole whole ∧ IsFraction fraction ∧ IsExponent exponent

/-- What follows does not go on with a number. -/
def Stops (cs : List Char) : Prop :=
  ∀ c ∈ cs.head?, isDigit c = false ∧ c ≠ '.' ∧ c ≠ 'e' ∧ c ≠ 'E'

def NoDigit (cs : List Char) : Prop :=
  ∀ c ∈ cs.head?, isDigit c = false

theorem Stops.noDigit {cs : List Char} (h : Stops cs) : NoDigit cs :=
  fun c hc => (h c hc).1

theorem NoDigit.takeWhile_eq {cs : List Char} (h : NoDigit cs) : cs.takeWhile isDigit = [] := by
  cases cs with
  | nil => rfl
  | cons c rest => simp [h c rfl]

theorem NoDigit.dropWhile_eq {cs : List Char} (h : NoDigit cs) : cs.dropWhile isDigit = cs := by
  cases cs with
  | nil => rfl
  | cons c rest => simp [h c rfl]

theorem takeWhile_digits {ds rest : List Char} (h : ∀ c ∈ ds, isDigit c = true)
    (hrest : NoDigit rest) : (ds ++ rest).takeWhile isDigit = ds := by
  rw [List.takeWhile_append_of_pos h, hrest.takeWhile_eq, List.append_nil]

theorem dropWhile_digits {ds rest : List Char} (h : ∀ c ∈ ds, isDigit c = true)
    (hrest : NoDigit rest) : (ds ++ rest).dropWhile isDigit = rest := by
  rw [List.dropWhile_append_of_pos h, hrest.dropWhile_eq]

theorem digits_takeWhile {cs : List Char} (h : cs.takeWhile isDigit ≠ []) :
    Digits (cs.takeWhile isDigit) :=
  ⟨h, fun _ hc => List.mem_takeWhile_imp hc⟩

theorem isWhole_of_scanWhole {cs w rest : List Char} (h : scanWhole cs = some (w, rest)) :
    cs = w ++ rest ∧ IsWhole w := by
  unfold scanWhole at h
  split at h
  · cases h
    exact ⟨rfl, .inl rfl⟩
  · next hzero =>
    split at h
    · cases h
    · next hne =>
      cases h
      refine ⟨List.takeWhile_append_dropWhile.symm, .inr ⟨digits_takeWhile hne, ?_⟩⟩
      intro hhead
      cases cs with
      | nil => cases hhead
      | cons c more =>
          cases hc : isDigit c with
          | false => simp [hc] at hhead
          | true =>
              rw [List.takeWhile_cons_of_pos hc] at hhead
              cases hhead
              exact hzero more rfl

theorem isFraction_of_scanFraction {cs f rest : List Char}
    (h : scanFraction cs = some (f, rest)) : cs = f ++ rest ∧ IsFraction f := by
  unfold scanFraction at h
  split at h
  · split at h
    · cases h
    · next hne =>
      cases h
      refine ⟨?_, .inr ⟨_, rfl, digits_takeWhile hne⟩⟩
      rw [List.cons_append, List.takeWhile_append_dropWhile]
  · cases h
    exact ⟨rfl, .inl rfl⟩

theorem isExponent_of_scanExponent {cs e rest : List Char}
    (h : scanExponent cs = some (e, rest)) : cs = e ++ rest ∧ IsExponent e := by
  unfold scanExponent at h
  split at h
  · next mark more =>
    split at h
    · next hmark =>
      split at h
      next sign digits hsplit =>
      split at h
      · cases h
      · next hne =>
        cases h
        have hsign : more = sign ++ digits ∧ (sign = [] ∨ sign = ['+'] ∨ sign = ['-']) := by
          split at hsplit <;> cases hsplit <;> simp
        refine ⟨?_, .inr ⟨mark, sign, _, rfl, by simpa using hmark, hsign.2,
          digits_takeWhile hne⟩⟩
        rw [List.cons_append, List.append_assoc, List.takeWhile_append_dropWhile, hsign.1]
    · cases h
      exact ⟨rfl, .inl rfl⟩
  · cases h
    exact ⟨rfl, .inl rfl⟩

theorem numeral_of_scanNumber {cs text rest : List Char}
    (h : scanNumber cs = some (text, rest)) : cs = text ++ rest ∧ Numeral text := by
  unfold scanNumber at h
  simp only [Option.bind_eq_bind, Option.bind_eq_some_iff, Option.pure_def] at h
  obtain ⟨⟨whole, afterWhole⟩, hscan, ⟨fraction, afterFraction⟩, hscan', ⟨exponent, after⟩,
    hscan'', heq⟩ := h
  cases heq
  obtain ⟨hwhole, hw⟩ := isWhole_of_scanWhole hscan
  obtain ⟨rfl, hf⟩ := isFraction_of_scanFraction hscan'
  obtain ⟨rfl, he⟩ := isExponent_of_scanExponent hscan''
  refine ⟨?_, _, whole, fraction, exponent, rfl, ?_, hw, hf, he⟩
  · simp only [List.append_assoc, ← hwhole]
    split <;> rfl
  · split <;> simp

/-! ## Numerals scanned again -/

theorem Digits.exists_cons {ds : List Char} (h : Digits ds) :
    ∃ c more, ds = c :: more ∧ isDigit c = true := by
  obtain ⟨c, more, rfl⟩ := List.exists_cons_of_ne_nil h.1
  exact ⟨c, more, rfl, h.2 c List.mem_cons_self⟩

theorem ne_of_isDigit {c d : Char} (hc : isDigit c = true) (hd : isDigit d = false) : c ≠ d := by
  rintro rfl
  rw [hc] at hd
  cases hd

theorem scanExponent_append {e rest : List Char} (h : IsExponent e) (hrest : Stops rest) :
    scanExponent (e ++ rest) = some (e, rest) := by
  rcases h with rfl | ⟨mark, sign, ds, rfl, hmark, hsign, hds⟩
  · cases rest with
    | nil => rfl
    | cons c more =>
        obtain ⟨-, -, he, hE⟩ := hrest c rfl
        simp [scanExponent, he, hE]
  · obtain ⟨c, more, hcons, hc⟩ := hds.exists_cons
    have htake := takeWhile_digits hds.2 hrest.noDigit
    have hdrop := dropWhile_digits hds.2 hrest.noDigit
    have hplus : c ≠ '+' := ne_of_isDigit hc (by decide)
    have hminus : c ≠ '-' := ne_of_isDigit hc (by decide)
    rw [hcons] at htake hdrop
    rcases hsign with rfl | rfl | rfl
    all_goals
      rcases hmark with rfl | rfl
      all_goals
        simp only [hcons, List.cons_append, List.nil_append] at htake hdrop ⊢
        simp [scanExponent, htake, hdrop, hplus, hminus]

theorem scanFraction_append {f rest : List Char} (h : IsFraction f) (hrest : NoDigit rest)
    (hpoint : rest.head? ≠ some '.') : scanFraction (f ++ rest) = some (f, rest) := by
  rcases h with rfl | ⟨ds, rfl, hds⟩
  · unfold scanFraction
    split
    · next heq =>
      rw [List.nil_append] at heq
      exact absurd (by rw [heq]; rfl) hpoint
    · rfl
  · have htake := takeWhile_digits hds.2 hrest
    have hdrop := dropWhile_digits hds.2 hrest
    simp [scanFraction, htake, hdrop, hds.1]

theorem scanWhole_append {w rest : List Char} (h : IsWhole w) (hrest : NoDigit rest) :
    scanWhole (w ++ rest) = some (w, rest) := by
  rcases h with rfl | ⟨hds, hhead⟩
  · rfl
  · have htake := takeWhile_digits hds.2 hrest
    have hdrop := dropWhile_digits hds.2 hrest
    obtain ⟨c, more, rfl, -⟩ := hds.exists_cons
    have hzero : c ≠ '0' := fun hc => hhead (by rw [hc]; rfl)
    unfold scanWhole
    split
    · next heq => exact absurd (List.cons.inj heq).1 hzero
    · rw [htake, hdrop]

theorem IsExponent.head {e rest : List Char} (h : IsExponent e) (hrest : Stops rest) :
    NoDigit (e ++ rest) ∧ (e ++ rest).head? ≠ some '.' := by
  rcases h with rfl | ⟨mark, sign, ds, rfl, rfl | rfl, -⟩
  · exact ⟨hrest.noDigit, fun hpoint => (hrest '.' hpoint).2.1 rfl⟩
  · exact ⟨by rintro c ⟨⟩; rfl, by simp⟩
  · exact ⟨by rintro c ⟨⟩; rfl, by simp⟩

theorem IsFraction.noDigit {f rest : List Char} (h : IsFraction f) (hrest : NoDigit rest) :
    NoDigit (f ++ rest) := by
  rcases h with rfl | ⟨ds, rfl, -⟩
  · exact hrest
  · rintro c ⟨⟩
    rfl

theorem IsWhole.exists_cons {w : List Char} (h : IsWhole w) :
    ∃ c more, w = c :: more ∧ isDigit c = true := by
  rcases h with rfl | ⟨hds, -⟩
  · exact ⟨'0', [], rfl, rfl⟩
  · exact hds.exists_cons

theorem Numeral.exists_cons {text : List Char} (h : Numeral text) :
    ∃ c more, text = c :: more ∧ (c = '-' ∨ isDigit c = true) := by
  obtain ⟨sign, whole, fraction, exponent, rfl, hsign, hwhole, -⟩ := h
  obtain ⟨c, more, rfl, hc⟩ := hwhole.exists_cons
  rcases hsign with rfl | rfl
  · exact ⟨c, _, rfl, .inr hc⟩
  · exact ⟨'-', _, rfl, .inl rfl⟩

theorem Numeral.scanNumber_append {text rest : List Char} (h : Numeral text) (hrest : Stops rest) :
    scanNumber (text ++ rest) = some (text, rest) := by
  obtain ⟨sign, whole, fraction, exponent, rfl, hsign, hwhole, hfraction, hexponent⟩ := h
  obtain ⟨hdigit, hpoint⟩ := hexponent.head hrest
  have hscan := scanWhole_append hwhole (hfraction.noDigit hdigit)
  obtain ⟨c, more, rfl, hc⟩ := hwhole.exists_cons
  have hminus : c ≠ '-' := ne_of_isDigit hc (by decide)
  simp only [List.cons_append] at hscan
  rcases hsign with rfl | rfl
  all_goals
    simp [scanNumber, hminus, hscan, scanFraction_append hfraction hdigit hpoint,
      scanExponent_append hexponent hrest]

theorem isNumber_iff {literal : String} : isNumber literal = true ↔ Numeral literal.toList := by
  unfold isNumber
  constructor
  · intro h
    split at h
    · next text hscan =>
      obtain ⟨htext, hnumeral⟩ := numeral_of_scanNumber hscan
      rw [htext, List.append_nil]
      exact hnumeral
    · cases h
  · intro h
    have hstops : Stops [] := by rintro c ⟨⟩
    have hscan := h.scanNumber_append hstops
    rw [List.append_nil] at hscan
    rw [hscan]

theorem Numeral.isNumeral {text : List Char} (h : Numeral text) :
    ∀ c ∈ text, isNumeral c = true := by
  have hdigit {ds : List Char} (hds : Digits ds) : ∀ c ∈ ds, Json.isNumeral c = true := by
    intro c hc
    simp [Json.isNumeral, hds.2 c hc]
  obtain ⟨sign, whole, fraction, exponent, rfl, hsign, hwhole, hfraction, hexponent⟩ := h
  simp only [List.forall_mem_append]
  refine ⟨⟨⟨?_, ?_⟩, ?_⟩, ?_⟩
  · rcases hsign with rfl | rfl <;> simp [Json.isNumeral]
  · rcases hwhole with rfl | ⟨hds, -⟩
    · simp [Json.isNumeral, isDigit]
    · exact hdigit hds
  · rcases hfraction with rfl | ⟨ds, rfl, hds⟩
    · simp
    · exact List.forall_mem_cons.mpr ⟨rfl, hdigit hds⟩
  · rcases hexponent with rfl | ⟨mark, sign, ds, rfl, hmark, hsign, hds⟩
    · simp
    · refine List.forall_mem_cons.mpr ⟨?_, List.forall_mem_append.mpr ⟨?_, hdigit hds⟩⟩
      · rcases hmark with rfl | rfl <;> decide
      · rcases hsign with rfl | rfl | rfl <;> simp [Json.isNumeral]

theorem Stops.takeWhile {ls : List Letter} (h : Stops (ls.map Letter.read))
    (p : Letter → Bool) : Stops ((ls.takeWhile p).map Letter.read) := by
  cases ls with
  | nil => exact h
  | cons l rest =>
      rw [List.takeWhile_cons]
      split
      · exact h
      · rintro c ⟨⟩

theorem Numeral.scanNumeral_append {text : List Char} (h : Numeral text) {rest : List Letter}
    (hrest : Stops (rest.map Letter.read)) :
    scanNumeral (chars text ++ rest) = some (text, rest) := by
  have hrun : ∀ l ∈ chars text, Json.isNumeral l.read = true := by
    simpa [chars, Letter.read] using h.isNumeral
  have hscan := h.scanNumber_append (hrest.takeWhile fun l => Json.isNumeral l.read)
  have hdrop : (chars text ++ rest).drop text.length = rest :=
    List.drop_left' (List.length_map _)
  simp only [scanNumeral, List.takeWhile_append_of_pos hrun, List.map_append, Text.read_chars,
    hscan, Option.map_some, hdrop]

/-! ## Tokens -/

/-- The token is spelled as the format asks, and read back from its bytes. -/
def Lexeme.Sound : Lexeme → Prop
  | .number text => Numeral text
  | .string source => Quotable source ∧ Settled source
  | _ => True

theorem of_scanNumeral {ls rest : List Letter} {text : List Char}
    (h : scanNumeral ls = some (text, rest)) : Numeral text ∧ ∃ front, ls = front ++ rest := by
  obtain ⟨⟨text', after⟩, hscan, heq⟩ := Option.map_eq_some_iff.mp h
  cases heq
  exact ⟨(numeral_of_scanNumber hscan).2, _, (List.take_append_drop _ ls).symm⟩

theorem of_scanLexeme {ls rest : List Letter} {l : Lexeme} (hls : Settled ls)
    (h : scanLexeme ls = some (l, rest)) : l.Sound ∧ Settled rest := by
  unfold scanLexeme at h
  split at h
  case h_11 =>
    obtain ⟨⟨source, after⟩, hscan, heq⟩ := Option.map_eq_some_iff.mp h
    cases heq
    obtain ⟨hquotable, rfl⟩ := of_scanQuoted hscan
    obtain ⟨hsource, hafter⟩ := Text.settled_append_char.mp hls.tail
    exact ⟨⟨hquotable, hsource⟩, hafter⟩
  case h_12 =>
    obtain ⟨⟨text, after⟩, hscan, heq⟩ := Option.map_eq_some_iff.mp h
    cases heq
    obtain ⟨hnumeral, front, rfl⟩ := of_scanNumeral hscan
    exact ⟨hnumeral, hls.of_append_right⟩
  all_goals
    cases h
    try exact ⟨trivial, hls.tail⟩
    try exact ⟨trivial, hls.tail.tail.tail.tail⟩
    try exact ⟨trivial, hls.tail.tail.tail.tail.tail⟩

theorem scanLexeme_of_digit {c : Char} (h : c = '-' ∨ isDigit c = true) (ls : List Letter) :
    scanLexeme (.char c :: ls) =
      (scanNumeral (.char c :: ls)).map fun (text, after) => (.number text, after) := by
  unfold scanLexeme
  split
  case h_1 heq => cases heq
  case h_12 => rfl
  all_goals
    next heq =>
    have hc := Letter.char.inj (List.cons.inj heq).1
    rw [hc] at h
    exact absurd h (by decide)

/-- The token is a number, which what follows it might go on with. -/
def Lexeme.isNumeric : Lexeme → Bool
  | .number _ => true
  | _ => false

theorem Lexeme.Sound.scanLexeme_append {l : Lexeme} (h : l.Sound) {rest : List Letter}
    (hrest : l.isNumeric = true → Stops (rest.map Letter.read)) :
    scanLexeme (l.text ++ rest) = some (l, rest) := by
  cases l with
  | number text =>
      have hscan := Numeral.scanNumeral_append h (hrest rfl)
      obtain ⟨c, more, rfl, hc⟩ := Numeral.exists_cons h
      rw [Lexeme.text, chars, List.map_cons, List.cons_append, scanLexeme_of_digit hc,
        ← List.cons_append, ← List.map_cons, ← chars, hscan]
      rfl
  | string source =>
      simp [text, scanLexeme, Quotable.scanQuoted_append h.1]
  | bool b => cases b <;> rfl
  | _ => rfl

/-- A token is kept apart from what stands behind it. -/
theorem Lexeme.Sound.settled_append {l : Lexeme} (h : l.Sound) {rest : List Letter}
    (hrest : Settled rest) : Settled (l.text ++ rest) := by
  cases l with
  | string source =>
      rw [text, List.cons_append, List.append_assoc]
      exact Text.settled_cons_char.mpr (Text.settled_append_char.mpr ⟨h.2, hrest⟩)
  | bool b => cases b <;> exact (Text.settled_chars_append _).mpr hrest
  | _ => exact (Text.settled_chars_append _).mpr hrest

theorem not_of_isSpace {c : Char} (h : isSpace c = true) :
    c ≠ '-' ∧ isDigit c = false ∧ c ≠ '.' ∧ c ≠ 'e' ∧ c ≠ 'E' := by
  have hc : c = ' ' ∨ c = '\t' ∨ c = '\n' ∨ c = '\r' := by simpa [isSpace, or_assoc] using h
  rcases hc with rfl | rfl | rfl | rfl <;> decide

theorem Lexeme.Sound.exists_cons {l : Lexeme} (h : l.Sound) :
    ∃ c more, l.text = .char c :: more ∧ isSpace c = false := by
  cases l with
  | number text =>
      obtain ⟨c, more, rfl, hc⟩ := Numeral.exists_cons h
      refine ⟨c, chars more, rfl, Bool.eq_false_iff.mpr ?_⟩
      intro hspace
      obtain ⟨hminus, hdigit, -⟩ := not_of_isSpace hspace
      rcases hc with hc | hc
      · exact hminus hc
      · rw [hdigit] at hc
        cases hc
  | string source => exact ⟨'"', _, rfl, rfl⟩
  | bool b => cases b <;> exact ⟨_, _, rfl, rfl⟩
  | _ => exact ⟨_, _, rfl, rfl⟩

def Token.Sound (t : Token) : Prop :=
  (∀ c ∈ t.blank, isSpace c = true) ∧ t.lexeme.Sound

theorem sound_of_scanTokens {fuel : Nat} {ls : List Letter} {tokens : List Token}
    (hls : Settled ls) (h : scanTokens fuel ls = some tokens) : ∀ t ∈ tokens, t.Sound := by
  fun_induction scanTokens fuel ls generalizing tokens with
  | case1 =>
      cases h
      simp
  | case2 => cases h
  | case3 ls blank fuel =>
      rename_i ih
      simp only [Option.bind_eq_bind, Option.bind_eq_some_iff, Option.pure_def] at h
      obtain ⟨⟨l, rest⟩, hl, more, hmore, heq⟩ := h
      cases heq
      have hbody : Settled (ls.dropWhile fun l => isSpace l.read) := by
        rw [← List.takeWhile_append_dropWhile (p := fun l => isSpace l.read) (l := ls)] at hls
        exact hls.of_append_right
      obtain ⟨hsound, hrest⟩ := of_scanLexeme hbody hl
      intro t ht
      rcases List.mem_cons.mp ht with rfl | ht
      · refine ⟨?_, hsound⟩
        simp only [List.forall_mem_map]
        exact fun l hl => List.mem_takeWhile_imp (p := fun l : Letter => isSpace l.read) hl
      · exact ih rest hrest hmore t ht

/-! ## Rows of tokens -/

def Lexeme.delimits : Lexeme → Bool
  | .comma | .closeArray | .closeObject => true
  | _ => false

/-- A number is followed by something that ends it. -/
def Lexeme.Apart (l m : Lexeme) : Prop :=
  l.isNumeric = true → m.delimits = true

theorem Token.source_cons (t : Token) (rest : List Token) :
    Token.source (t :: rest) = chars t.blank ++ (t.lexeme.text ++ Token.source rest) := by
  simp [Token.source]

theorem Token.settled_source {tokens : List Token} (h : ∀ t ∈ tokens, t.Sound) :
    Settled (Token.source tokens) := by
  induction tokens with
  | nil => exact Text.settled_nil
  | cons t rest ih =>
      have hrest := ih fun u hu => h u (List.mem_cons_of_mem t hu)
      rw [Token.source_cons, Text.settled_chars_append]
      exact (h t List.mem_cons_self).2.settled_append hrest

theorem Token.stops_source {l : Lexeme} (hl : l.isNumeric = true) {rest : List Token}
    (hsound : ∀ t ∈ rest, t.Sound) (hchain : (l :: rest.map (·.lexeme)).IsChain Lexeme.Apart) :
    Stops ((Token.source rest).map Letter.read) := by
  cases rest with
  | nil => rintro c ⟨⟩
  | cons t rest =>
      have hdelimits : t.lexeme.delimits = true := (List.isChain_cons_cons.mp hchain).1 hl
      rw [Token.source_cons]
      cases hblank : t.blank with
      | cons c blank =>
          rintro _ ⟨⟩
          exact (not_of_isSpace ((hsound t List.mem_cons_self).1 c (by simp [hblank]))).2
      | nil =>
          cases hlexeme : t.lexeme with
          | comma | closeArray | closeObject =>
              rintro _ ⟨⟩
              decide
          | _ =>
              rw [hlexeme] at hdelimits
              cases hdelimits

/-- Sound tokens in a row are cut as they were put together. -/
theorem scanTokens_source {tokens : List Token} (hsound : ∀ t ∈ tokens, t.Sound)
    (hchain : (tokens.map (·.lexeme)).IsChain Lexeme.Apart) {fuel : Nat}
    (hfuel : tokens.length ≤ fuel) : scanTokens fuel (Token.source tokens) = some tokens := by
  induction tokens generalizing fuel with
  | nil => cases fuel <;> rfl
  | cons t rest ih =>
      obtain ⟨fuel, rfl⟩ : ∃ n, fuel = n + 1 := ⟨fuel - 1, by simp at hfuel; omega⟩
      obtain ⟨hblank, hlexeme⟩ := hsound t List.mem_cons_self
      obtain ⟨c, more, hcons, hc⟩ := hlexeme.exists_cons
      have hscan := hlexeme.scanLexeme_append fun hnumeric => Token.stops_source hnumeric
        (fun u hu => hsound u (List.mem_cons_of_mem t hu)) hchain
      have hrest := ih (fun u hu => hsound u (List.mem_cons_of_mem t hu)) hchain.tail
        (by simpa using hfuel)
      have hspaces : ∀ l ∈ chars t.blank, isSpace l.read = true := by
        simpa [chars, Letter.read] using hblank
      have hend : isSpace (Letter.char c).read = false := hc
      have htake : (chars t.blank ++ (t.lexeme.text ++ Token.source rest)).takeWhile
          (fun l => isSpace l.read) = chars t.blank := by
        rw [List.takeWhile_append_of_pos hspaces, hcons]
        simp [hend]
      have hdrop : (chars t.blank ++ (t.lexeme.text ++ Token.source rest)).dropWhile
          (fun l => isSpace l.read) = t.lexeme.text ++ Token.source rest := by
        rw [List.dropWhile_append_of_pos hspaces, hcons]
        simp [hend]
      rw [Token.source_cons, scanTokens, htake, hdrop]
      simp only [hcons, List.cons_append] at hscan ⊢
      simp [hscan, hrest, Text.read_chars]

end VoxelScout.Json
