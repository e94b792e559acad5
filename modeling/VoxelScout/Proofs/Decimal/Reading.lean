import VoxelScout.Proofs.Decimal.ReadBack

/-! # Numerals read

A whole number is read from its digits, and a floating point number of any kind from its form
without an exponent.
-/

namespace VoxelScout.Decimal

open Json

/-! ## Whole numbers -/

theorem lt_ten_of_isDigit {c : Char} (h : isDigit c = true) : c.toNat - 48 < 10 := by
  simp only [isDigit, Bool.and_eq_true, decide_eq_true_eq, Char.le_def, UInt32.le_iff_toNat_le] at h
  have hnine : c.toNat ≤ 57 := h.2
  omega

theorem readDigits?_of_digits {ds : List Char} (h : ∀ c ∈ ds, isDigit c = true) :
    readDigits? 10 0 ds = some (digitsToNat ds) := by
  suffices hacc : ∀ acc, readDigits? 10 acc ds = some (ds.foldl
      (fun acc c => if isDigit c then acc * 10 + (c.toNat - 48) else acc) acc) from hacc 0
  induction ds with
  | nil => exact fun _ => rfl
  | cons c ds ih =>
      intro acc
      have hc := h c List.mem_cons_self
      have hvalue : digitValue? c = some (c.toNat - 48) := if_pos hc
      have hmark : c ≠ '_' := ne_of_isDigit hc (by decide)
      rw [readDigits?, hvalue, List.foldl_cons, if_pos hc,
        ← ih fun d hd => h d (List.mem_cons_of_mem c hd)]
      · exact if_pos (lt_ten_of_isDigit hc)
      · exact hmark

theorem not_contains_of_digits {ds : List Char} (h : ∀ c ∈ ds, isDigit c = true) (mark : Char)
    (hmark : isDigit mark = false) : ds.contains mark = false := by
  rw [← Bool.not_eq_true, List.contains_iff_mem]
  exact fun hmem => ne_of_isDigit (h mark hmem) hmark rfl

/-- Digits without a leading zero are read in base ten. -/
theorem readNat?_toDigits (n : Nat) : readNat? (Nat.toDigits 10 n) = some n := by
  by_cases hn : n = 0
  · subst hn
    decide
  · have hdigits := all_isDigit_toDigits n
    have hvalue := readDigits?_of_digits hdigits
    have hmark := not_contains_of_digits hdigits '_' (by decide)
    obtain ⟨c, rest, htext, hc⟩ := head_toDigits_ne_zero (Nat.pos_of_ne_zero hn)
    rw [digitsToNat_toDigits] at hvalue
    rw [htext] at hvalue hmark ⊢
    unfold readNat?
    rw [hmark]
    split
    · next hfalse => cases hfalse
    · split
      · next heq => cases heq
      · next heq => exact absurd (List.cons.inj heq).1 hc
      · next heq => exact absurd (List.cons.inj heq).1 hc
      · exact hvalue

theorem readInt?_toDigits (n : Nat) : readInt? (Nat.toDigits 10 n) = some (n : Int) := by
  have hdigits := all_isDigit_toDigits n
  have hmark := not_contains_of_digits hdigits '_' (by decide)
  unfold readInt?
  rw [hmark]
  split
  · next hfalse => cases hfalse
  · split
    · next heq => exact absurd (hdigits '+' (by rw [heq]; exact List.mem_cons_self)) (by decide)
    · next heq => exact absurd (hdigits '-' (by rw [heq]; exact List.mem_cons_self)) (by decide)
    · rw [readNat?_toDigits]
      rfl

theorem readInt?_neg_toDigits (n : Nat) :
    readInt? ('-' :: Nat.toDigits 10 n) = some (-(n : Int)) := by
  have hmark := not_contains_of_digits (all_isDigit_toDigits n) '_' (by decide)
  have hcontains : ('-' :: Nat.toDigits 10 n).contains '_' = false := by
    rw [List.contains_cons, hmark]
    rfl
  unfold readInt?
  rw [hcontains]
  simp [readNat?_toDigits]

/-! ## Floating point numbers -/

def Positional (body : List Char) : Prop :=
  (∃ c rest, body = c :: rest ∧ isDigit c = true) ∧ ∀ c ∈ body, isDigit c = true ∨ c = '.'

theorem Positional.notMem {body : List Char} (h : Positional body) {c : Char}
    (hdigit : isDigit c = false) (hpoint : c ≠ '.') : c ∉ body := by
  intro hmem
  rcases h.2 c hmem with hc | hc
  · exact ne_of_isDigit hc hdigit rfl
  · exact hpoint hc

/-- What starts with a digit is no name, in whatever case its letters are put. -/
theorem Positional.not_name {body : List Char} (h : Positional body) (name : String) {first : Char}
    (hname : name.toList.head? = some first) (hfirst : isDigit first = false) :
    (String.ofList (body.map fun c =>
      if 'A' ≤ c && c ≤ 'Z' then Char.ofNat (c.toNat + 32) else c) == name) = false := by
  obtain ⟨⟨c, rest, rfl, hc⟩, -⟩ := h
  have hlower : ¬ ('A' ≤ c && c ≤ 'Z') = true := by
    simp only [isDigit, Bool.and_eq_true, decide_eq_true_eq] at hc ⊢
    exact fun hletter => absurd (hletter.1.trans hc.2) (by decide)
  rw [beq_eq_false_iff_ne]
  rintro rfl
  rw [String.toList_ofList, List.map_cons, List.head?_cons, if_neg hlower] at hname
  exact ne_of_isDigit hc hfirst (Option.some.inj hname)

/-- A sign, where there is one, and digits and points: no name and no base mark. -/
theorem readFloat?_signed {body : List Char} (h : Positional body) (negative : Bool) :
    readFloat? (if negative then '-' :: body else body) = readDecimal? negative body := by
  have hmark : (if negative then '-' :: body else body).contains '_' = false := by
    have hbody := h.notMem (c := '_') (by decide) (by decide)
    cases negative with
    | false => simpa using hbody
    | true => simpa using hbody
  have hinf := h.not_name "inf" rfl (by decide)
  have hinfinity := h.not_name "infinity" rfl (by decide)
  have hnan := h.not_name "nan" rfl (by decide)
  unfold readFloat?
  rw [hmark, Bool.false_and, if_neg Bool.false_ne_true]
  split
  next sign hasSign text hsplit =>
  have hparts : sign = negative ∧ text = body := by
    cases negative with
    | true =>
        cases hsplit
        exact ⟨rfl, rfl⟩
    | false =>
        have hplus := h.notMem (c := '+') (by decide) (by decide)
        have hminus := h.notMem (c := '-') (by decide) (by decide)
        rw [if_neg Bool.false_ne_true] at hsplit
        split at hsplit
        · exact absurd List.mem_cons_self hplus
        · exact absurd List.mem_cons_self hminus
        · cases hsplit
          exact ⟨rfl, rfl⟩
  obtain ⟨rfl, rfl⟩ := hparts
  simp only [hinf, hinfinity, hnan, Bool.or_false, Bool.false_and, Bool.false_eq_true, if_false]
  split
  · next m d more =>
    have hx : m ≠ 'x' ∧ m ≠ 'X' := by
      constructor
      · rintro rfl
        exact h.notMem (c := 'x') (by decide) (by decide) (by simp)
      · rintro rfl
        exact h.notMem (c := 'X') (by decide) (by decide) (by simp)
    simp [hx]
  · rfl

theorem positional_toList {s : Scientific} (h : s = ⟨0, 0⟩ ∨ s.coefficient ≠ 0) :
    Positional (positional s).toList := by
  obtain ⟨whole, fraction, htext, hwhole, hfraction⟩ := positional_eq h
  have hdigits : ∀ d ∈ whole, isDigit d = true := by
    rcases hwhole with rfl | ⟨hwhole, -⟩
    · exact fun d hd => isDigit_of_mem_replicate (k := 1) hd
    · exact hwhole.2
  obtain ⟨c, rest, rfl, hc⟩ := hwhole.exists_cons
  rw [htext]
  refine ⟨⟨c, rest ++ fraction, rfl, hc⟩, fun d hd => ?_⟩
  rcases List.mem_append.mp hd with hd | hd
  · exact .inl (hdigits d hd)
  · rcases hfraction with rfl | ⟨ds, rfl, -, hds⟩
    · cases hd
    · rcases List.mem_cons.mp hd with rfl | hd
      · exact .inr rfl
      · exact .inl (hds d hd)

/-- A finite number is written with digits and points after its sign, and read from them. -/
theorem exists_plain {x : Float} (h : x.isFinite = true) :
    ∃ negative body, (plain x).toList = (if negative then '-' :: body else body) ∧
      Positional body ∧ readDecimal? negative body = some x := by
  obtain ⟨e, hparts, hcases⟩ := ofFloat?_of_isFinite h
  have hshortest : shortest e = ⟨0, 0⟩ ∨ (shortest e).coefficient ≠ 0 :=
    shortest_cases (hcases.imp (·.1) (·.1))
  have htext : (plain x).toList = if e.negative then '-' :: (positional (shortest e)).toList
      else (positional (shortest e)).toList := by
    rw [plain, hparts]
    cases hsign : e.negative with
    | false => simp [hsign, signed]
    | true => simp [hsign, signed]
  refine ⟨e.negative, _, htext, positional_toList hshortest, ?_⟩
  obtain ⟨c, k, hread, hvalue⟩ := readDecimal?_positional (shortest e) e.negative
  rcases hcases with ⟨hzero, hunpack⟩ | ⟨hcanonical, hunpack⟩
  · rw [← ofModel_pack_unpack x, hunpack, shortest_of_zero hzero]
    cases e.negative with
    | false => decide
    | true => decide
  · have hnear := near_shortest hcanonical
    rw [← hvalue] at hnear
    rw [hread, nearest?_of_near hcanonical hnear, Exact.toFloat, ← hunpack, ofModel_pack_unpack]

theorem eq_of_not_isFinite {x : Float} (h : x.isFinite = false) :
    x = 0 / 0 ∨ x = 1 / 0 ∨ x = -(1 / 0) := by
  change x.toModel.unpack.isFinite = false at h
  rw [← ofModel_pack_unpack x]
  cases hparts : x.toModel.unpack with
  | notANumber => exact .inl (by decide)
  | infinity sign =>
      cases sign with
      | positive => exact .inr (.inl (by decide))
      | negative => exact .inr (.inr (by decide))
  | zero sign =>
      rw [hparts] at h
      cases h
  | finite sign mantissa exponent hpos =>
      rw [hparts] at h
      cases h

theorem plain_of_not_isFinite {x : Float} (h : x.isFinite = false) :
    plain x ∈ ["NaN", "+Inf", "-Inf"] := by
  rcases eq_of_not_isFinite h with rfl | rfl | rfl
  · decide
  · decide
  · decide

theorem mem_plain {x : Float} {c : Char} (hc : c ∈ (plain x).toList) :
    isDigit c = true ∨ c ∈ ['.', '+', '-', 'N', 'a', 'I', 'n', 'f'] := by
  cases hfinite : x.isFinite with
  | true =>
      obtain ⟨negative, body, htext, hbody, -⟩ := exists_plain hfinite
      have hsigned : c = '-' ∨ c ∈ body := by
        rw [htext] at hc
        cases negative with
        | true => exact List.mem_cons.mp hc
        | false => exact .inr hc
      rcases hsigned with rfl | hmem
      · exact .inr (by decide)
      · rcases hbody.2 c hmem with hdigit | rfl
        · exact .inl hdigit
        · exact .inr (by decide)
  | false =>
      have hnames : ∀ name ∈ ["NaN", "+Inf", "-Inf"],
          name.toList ⊆ ['.', '+', '-', 'N', 'a', 'I', 'n', 'f'] := by decide
      exact .inr (hnames _ (plain_of_not_isFinite hfinite) hc)

/-- The form without an exponent is read as the number, be it finite or not. -/
theorem readFloat?_plain (x : Float) : readFloat? (plain x).toList = some x := by
  cases hfinite : x.isFinite with
  | true =>
      obtain ⟨negative, body, htext, hbody, hread⟩ := exists_plain hfinite
      rw [htext, readFloat?_signed hbody, hread]
  | false =>
      rcases eq_of_not_isFinite hfinite with rfl | rfl | rfl
      · decide
      · decide
      · decide

end VoxelScout.Decimal
