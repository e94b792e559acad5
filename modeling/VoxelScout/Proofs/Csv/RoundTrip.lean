import VoxelScout.Csv

/-! # Tables read back

A table is read back field by field. Quotes keep every character of a field but one: a carriage
return that stands before a line break is lost, inside quotes as well.
-/

namespace VoxelScout.Csv

/-! ## Line breaks -/

/-- The characters without the carriage returns that stand before a line break. -/
def dropReturns : List Char → List Char
  | [] => []
  | '\r' :: '\n' :: rest => '\n' :: dropReturns rest
  | c :: rest => c :: dropReturns rest

def fieldRead (field : String) : String :=
  String.ofList (dropReturns field.toList)

theorem unifyBreaks_cons {c : Char} (h : c ≠ '\r') (rest : List Char) :
    unifyBreaks (c :: rest) = c :: unifyBreaks rest := by
  rw [unifyBreaks]
  · exact fun heq _ => h heq
  · exact fun _ heq _ => h heq

theorem unifyBreaks_return {d : Char} (h : d ≠ '\n') (rest : List Char) :
    unifyBreaks ('\r' :: d :: rest) = '\r' :: unifyBreaks (d :: rest) := by
  rw [unifyBreaks]
  · exact fun _ heq => List.cons_ne_nil d rest heq
  · intro _ _ heq
    exact h (List.cons.inj heq).1

theorem dropReturns_eq_self {cs : List Char} (h : '\r' ∉ cs) : dropReturns cs = cs := by
  fun_induction dropReturns cs with
  | case1 => rfl
  | case2 rest ih => exact absurd List.mem_cons_self h
  | case3 c rest hpair ih => rw [ih fun hmem => h (List.mem_cons_of_mem c hmem)]

theorem fieldRead_eq_self {field : String} (h : '\r' ∉ field.toList) : fieldRead field = field := by
  rw [fieldRead, dropReturns_eq_self h, String.ofList_toList]

theorem unifyBreaks_append {cs : List Char} (h : '\r' ∉ cs) (rest : List Char) :
    unifyBreaks (cs ++ rest) = cs ++ unifyBreaks rest := by
  induction cs with
  | nil => rfl
  | cons c cs ih =>
      rw [List.cons_append, unifyBreaks_cons (List.ne_of_not_mem_cons h).symm,
        ih (List.not_mem_of_not_mem_cons h), List.cons_append]

/-! ## Fields -/

theorem doubleQuotes_cons {c : Char} (h : c ≠ '"') (cs : List Char) :
    doubleQuotes (c :: cs) = c :: doubleQuotes cs := by
  simp [doubleQuotes, h]

theorem doubleQuotes_quote (cs : List Char) :
    doubleQuotes ('"' :: cs) = '"' :: '"' :: doubleQuotes cs := by
  simp [doubleQuotes]

/-- The closing quote keeps a carriage return at the end of a field from what follows. -/
theorem unifyBreaks_quoted (cs rest : List Char) :
    unifyBreaks (doubleQuotes cs ++ '"' :: rest)
      = doubleQuotes (dropReturns cs) ++ '"' :: unifyBreaks rest := by
  fun_induction dropReturns cs with
  | case1 => exact unifyBreaks_cons (by decide) rest
  | case2 cs ih =>
      rw [doubleQuotes_cons (by decide), doubleQuotes_cons (by decide),
        doubleQuotes_cons (by decide), List.cons_append, List.cons_append, List.cons_append, ← ih]
      rfl
  | case3 c cs hpair ih =>
      by_cases hquote : c = '"'
      · subst hquote
        rw [doubleQuotes_quote, doubleQuotes_quote, List.cons_append, List.cons_append,
          unifyBreaks_cons (by decide), unifyBreaks_cons (by decide), ih]
        rfl
      · rw [doubleQuotes_cons hquote, doubleQuotes_cons hquote, List.cons_append, List.cons_append,
          ← ih]
        by_cases hreturn : c = '\r'
        · subst hreturn
          -- What follows is the rest of the field, which is no line break, or a quote.
          obtain ⟨d, more, htext, hd⟩ : ∃ d more, doubleQuotes cs ++ '"' :: rest = d :: more ∧
              d ≠ '\n' := by
            cases cs with
            | nil => exact ⟨_, _, rfl, by decide⟩
            | cons d cs =>
                by_cases hd : d = '"'
                · subst hd
                  exact ⟨_, _, by rw [doubleQuotes_quote]; rfl, by decide⟩
                · refine ⟨_, _, by rw [doubleQuotes_cons hd]; rfl, ?_⟩
                  rintro rfl
                  exact hpair cs rfl rfl
          rw [htext, unifyBreaks_return hd]
        · exact unifyBreaks_cons hreturn _

theorem isDelicate_eq_false_iff {c : Char} :
    isDelicate c = false ↔ c ≠ ',' ∧ c ≠ '"' ∧ c ≠ '\r' ∧ c ≠ '\n' := by
  simp [isDelicate, and_assoc]

theorem not_isDelicate_of_not_needsQuotes {cs : List Char} (h : ¬ needsQuotes cs = true) :
    ∀ c ∈ cs, isDelicate c = false := by
  simp only [needsQuotes, Bool.or_eq_true, List.any_eq_true, not_or, not_exists, not_and,
    Bool.not_eq_true] at h
  exact h.1.2

theorem readFrom_quoted_cons {c : Char} (h : c ≠ '"') (p : Partial) (rest : List Char) :
    readFrom .quoted p (c :: rest) = readFrom .quoted (p.push c) rest :=
  if_neg (mt beq_iff_eq.mp h)

/-- A character that is no mark belongs to a bare field, and it begins one. -/
theorem readFrom_plain {state : State} (h : state = .field ∨ state = .bare) {c : Char}
    (hplain : isDelicate c = false) (p : Partial) (rest : List Char) :
    readFrom state p (c :: rest) = readFrom .bare (p.push c) rest := by
  obtain ⟨hcomma, hquote, -, hbreak⟩ := isDelicate_eq_false_iff.mp hplain
  have hne {d : Char} (h : c ≠ d) : ¬(c == d) = true := mt beq_iff_eq.mp h
  rcases h with rfl | rfl
  · exact (if_neg (hne hbreak)).trans ((if_neg (hne hcomma)).trans (if_neg (hne hquote)))
  · exact (if_neg (hne hbreak)).trans ((if_neg (hne hcomma)).trans (if_neg (hne hquote)))

/-- At the start of a line only a line break is read in a way of its own. -/
theorem readFrom_start_cons {c : Char} (h : c ≠ '\n') (p : Partial) (rest : List Char) :
    readFrom .start p (c :: rest) = readFrom .field p (c :: rest) := by
  have hbreak : ¬(c == '\n') = true := mt beq_iff_eq.mp h
  exact (if_neg hbreak).trans (if_neg hbreak).symm

theorem readFrom_quoted (fields : List String) (cs chars rest : List Char) :
    readFrom .quoted ⟨fields, chars⟩ (doubleQuotes cs ++ '"' :: rest)
      = readFrom .closing ⟨fields, cs.reverse ++ chars⟩ rest := by
  induction cs generalizing chars with
  | nil => rfl
  | cons c cs ih =>
      rw [List.reverse_cons, List.append_assoc, List.singleton_append, ← ih]
      by_cases hquote : c = '"'
      · subst hquote
        rw [doubleQuotes_quote]
        rfl
      · rw [doubleQuotes_cons hquote, List.cons_append, readFrom_quoted_cons hquote]
        rfl

theorem readFrom_bare (fields : List String) {cs : List Char}
    (h : ∀ c ∈ cs, isDelicate c = false) (chars rest : List Char) :
    readFrom .bare ⟨fields, chars⟩ (cs ++ rest)
      = readFrom .bare ⟨fields, cs.reverse ++ chars⟩ rest := by
  induction cs generalizing chars with
  | nil => rfl
  | cons c cs ih =>
      rw [List.reverse_cons, List.append_assoc, List.singleton_append,
        ← ih fun d hd => h d (List.mem_cons_of_mem c hd), List.cons_append,
        readFrom_plain (.inr rfl) (h c List.mem_cons_self)]
      rfl

def State.Ends (state : State) : Prop :=
  state ≠ .start ∧ state ≠ .quoted

theorem readFrom_comma {state : State} (h : state.Ends) (p : Partial) (rest : List Char) :
    readFrom state p (',' :: rest) = readFrom .field p.finishField rest := by
  cases state with
  | start => exact absurd rfl h.1
  | quoted => exact absurd rfl h.2
  | field => rfl
  | bare => rfl
  | closing => rfl

theorem readFrom_break {state : State} (h : state.Ends) (p : Partial) (rest : List Char) :
    readFrom state p ('\n' :: rest) = (readFrom .start ⟨[], []⟩ rest).map (p.record :: ·) := by
  cases state with
  | start => exact absurd rfl h.1
  | quoted => exact absurd rfl h.2
  | field => rfl
  | bare => rfl
  | closing => rfl

/-- A written field is read up to its end, whatever mark follows it. -/
theorem readFrom_writeField (fields : List String) (cs : List Char) :
    ∃ state : State, state.Ends ∧ ∀ mark rest, mark ≠ '\r' →
      readFrom .field ⟨fields, []⟩ (unifyBreaks (writeField cs ++ mark :: rest))
        = readFrom state ⟨fields, (dropReturns cs).reverse⟩ (mark :: unifyBreaks rest) := by
  unfold writeField
  split
  · refine ⟨.closing, ⟨by decide, by decide⟩, fun mark rest hmark => ?_⟩
    have htext : '"' :: (doubleQuotes cs ++ ['"']) ++ mark :: rest
        = '"' :: (doubleQuotes cs ++ '"' :: mark :: rest) := by simp
    rw [htext, unifyBreaks_cons (by decide), unifyBreaks_quoted, unifyBreaks_cons hmark]
    change readFrom .quoted ⟨fields, []⟩ _ = _
    rw [readFrom_quoted, List.append_nil]
  · next hbare =>
    have hplain := not_isDelicate_of_not_needsQuotes hbare
    have hreturn : '\r' ∉ cs := fun hmem => absurd (hplain '\r' hmem) (by decide)
    rw [dropReturns_eq_self hreturn]
    cases cs with
    | nil =>
        refine ⟨.field, ⟨by decide, by decide⟩, fun mark rest hmark => ?_⟩
        rw [List.nil_append, unifyBreaks_cons hmark]
        rfl
    | cons c cs =>
        refine ⟨.bare, ⟨by decide, by decide⟩, fun mark rest hmark => ?_⟩
        rw [unifyBreaks_append hreturn, unifyBreaks_cons hmark, List.cons_append,
          readFrom_plain (.inl rfl) (hplain c List.mem_cons_self), Partial.push,
          readFrom_bare fields fun d hd => hplain d (List.mem_cons_of_mem c hd),
          List.reverse_cons]

/-! ## Records -/

theorem joinFields_cons_cons (f g : List Char) (more : List (List Char)) :
    joinFields (f :: g :: more) = writeField f ++ ',' :: joinFields (g :: more) :=
  rfl

theorem readFrom_joinFields (fields : List String) (f : List Char) (more : List (List Char))
    (rest : List Char) :
    readFrom .field ⟨fields, []⟩ (unifyBreaks (joinFields (f :: more) ++ '\n' :: rest))
      = (readFrom .start ⟨[], []⟩ (unifyBreaks rest)).map
          ((fields.reverse ++ (f :: more).map fun g => String.ofList (dropReturns g)) :: ·) := by
  induction more generalizing fields f with
  | nil =>
      obtain ⟨state, hends, hread⟩ := readFrom_writeField fields f
      rw [joinFields, hread '\n' rest (by decide), readFrom_break hends]
      simp [Partial.record, Partial.finishField]
  | cons g more ih =>
      obtain ⟨state, hends, hread⟩ := readFrom_writeField fields f
      rw [joinFields_cons_cons, List.append_assoc, List.cons_append, hread ',' _ (by decide),
        readFrom_comma hends, Partial.finishField, ih]
      simp

def Visible (record : List String) : Prop :=
  record ≠ [] ∧ record ≠ [""]

theorem writeField_head {cs : List Char} (h : cs ≠ []) :
    ∃ c more, writeField cs = c :: more ∧ c ≠ '\r' ∧ c ≠ '\n' := by
  unfold writeField
  split
  · exact ⟨_, _, rfl, by decide, by decide⟩
  · next hbare =>
    obtain ⟨c, more, rfl⟩ := List.exists_cons_of_ne_nil h
    obtain ⟨-, -, hne⟩ :=
      isDelicate_eq_false_iff.mp (not_isDelicate_of_not_needsQuotes hbare c List.mem_cons_self)
    exact ⟨c, more, rfl, hne⟩

theorem writeRecord_head {record : List String} (h : Visible record) :
    ∃ c more, writeRecord record = c :: more ∧ c ≠ '\r' ∧ c ≠ '\n' := by
  obtain ⟨f, others, rfl⟩ := List.exists_cons_of_ne_nil h.1
  unfold writeRecord
  by_cases hf : f = ""
  · subst hf
    cases others with
    | nil => exact absurd rfl h.2
    | cons g others => exact ⟨',', _, rfl, by decide, by decide⟩
  · obtain ⟨c, more, htext, hne⟩ := writeField_head (mt String.toList_eq_nil_iff.mp hf)
    cases others with
    | nil =>
        rw [List.map_cons, List.map_nil, joinFields, htext]
        exact ⟨c, _, rfl, hne⟩
    | cons g others =>
        rw [List.map_cons, List.map_cons, joinFields_cons_cons, htext]
        exact ⟨c, _, rfl, hne⟩

/-- A line that is not empty is read like a line that follows a comma. -/
theorem readFrom_writeRecord {record : List String} (h : Visible record) (rest : List Char) :
    readFrom .start ⟨[], []⟩ (unifyBreaks (writeRecord record ++ rest))
      = (readFrom .start ⟨[], []⟩ (unifyBreaks rest)).map (record.map fieldRead :: ·) := by
  obtain ⟨f, others, rfl⟩ := List.exists_cons_of_ne_nil h.1
  obtain ⟨c, more, htext, hreturn, hbreak⟩ := writeRecord_head h
  have hstart : readFrom .start ⟨[], []⟩ (unifyBreaks (writeRecord (f :: others) ++ rest))
      = readFrom .field ⟨[], []⟩ (unifyBreaks (writeRecord (f :: others) ++ rest)) := by
    rw [htext, List.cons_append, unifyBreaks_cons hreturn, readFrom_start_cons hbreak]
  rw [hstart, writeRecord, List.append_assoc, List.singleton_append, List.map_cons,
    readFrom_joinFields, List.reverse_nil, List.nil_append, List.map_cons, List.map_map]
  rfl

/-! ## Tables -/

theorem write_append (records more : List (List String)) :
    write (records ++ more) = write records ++ write more := by
  simp [write]

theorem readFrom_write {records : List (List String)} (h : ∀ r ∈ records, Visible r) :
    readFrom .start ⟨[], []⟩ (unifyBreaks (records.flatMap writeRecord))
      = some (records.map (List.map fieldRead)) := by
  induction records with
  | nil => rfl
  | cons r records ih =>
      rw [List.flatMap_cons, readFrom_writeRecord (h r List.mem_cons_self),
        ih fun s hs => h s (List.mem_cons_of_mem r hs)]
      rfl

theorem isRectangular_map (f : String → String) (records : List (List String)) :
    isRectangular (records.map (List.map f)) = isRectangular records := by
  cases records with
  | nil => rfl
  | cons first rest => simp [isRectangular, Function.comp_def]

/-- A table is read back as it was written, save for carriage returns before line breaks. -/
theorem read?_write {records : List (List String)} (h : ∀ r ∈ records, Visible r)
    (hrectangular : isRectangular records = true) :
    read? (write records) = some (records.map (List.map fieldRead)) := by
  rw [read?, write, String.toList_ofList, readFrom_write h, Option.filter_some,
    isRectangular_map, hrectangular]
  rfl

end VoxelScout.Csv
