import VoxelScout.Proofs.Trace.Cells
import VoxelScout.Trace.Recorder

/-! # Traces read back

Reports are recorded one after the other, and some of them may fail. Whatever the failures, what
the writer holds is one table: the names of the columns and the rows that were recorded. It is read
back as these rows.
-/

namespace VoxelScout.Trace

/-! ## Tables of rows -/

/-- The table of some rows. Without rows there are no names of columns either. -/
def table : List Row → List (List String)
  | [] => []
  | r :: more => header :: (r :: more).map Row.cells

theorem table_of_ne_nil {rows : List Row} (h : rows ≠ []) :
    table rows = header :: rows.map Row.cells := by
  cases rows with
  | nil => exact absurd rfl h
  | cons r more => rfl

theorem length_cells (r : Row) : r.cells.length = header.length :=
  rfl

/-- The number of a tick is no name of a column. -/
theorem cells_ne_header (r : Row) : r.cells ≠ header := by
  intro heq
  have htick : Decimal.digitString r.tick.toNat = "tick" := (List.cons.inj heq).1
  have hmem : 't' ∈ Nat.toDigits 10 r.tick.toNat := by
    rw [← String.toList_ofList (l := Nat.toDigits 10 r.tick.toNat)]
    change 't' ∈ (Decimal.digitString r.tick.toNat).toList
    rw [htick]
    decide
  exact absurd (Json.all_isDigit_toDigits _ 't' hmem) (by decide)

theorem count_header_table (rows : List Row) :
    (table rows).count header = if rows.isEmpty then 0 else 1 := by
  cases rows with
  | nil => rfl
  | cons r more =>
      have hnone : ((r :: more).map Row.cells).count header = 0 := by
        rw [List.count_eq_zero, List.mem_map]
        rintro ⟨s, -, heq⟩
        exact cells_ne_header s heq
      rw [table, List.count_cons_self, hnone]
      rfl

theorem visible_of_length {record : List String} (h : record.length = header.length) :
    Csv.Visible record := by
  constructor
  · rintro rfl
    cases h
  · rintro rfl
    cases h

theorem mapM_readRow? {rows : List Row} (h : ∀ r ∈ rows, r.Regular) :
    (rows.map fun r => r.cells.map Csv.fieldRead).mapM (readRow? (header.map column?))
      = some (rows.map Row.softened) := by
  induction rows with
  | nil => rfl
  | cons r rows ih =>
      have hr := h r List.mem_cons_self
      have hrow : readRow? (header.map column?) r.softened.cells = some r.softened :=
        readRow?_cells hr.time hr.lastSeen
      rw [List.map_cons, List.mapM_cons, map_fieldRead_cells hr, hrow,
        ih fun s hs => h s (List.mem_cons_of_mem r hs)]
      rfl

theorem read_write_table {rows : List Row} (hne : rows ≠ []) (h : ∀ r ∈ rows, r.Regular) :
    read (Csv.write (table rows)) = .ok (rows.map Row.softened) := by
  have hlength : ∀ record ∈ table rows, record.length = header.length := by
    rw [table_of_ne_nil hne, List.forall_mem_cons, List.forall_mem_map]
    exact ⟨rfl, fun r _ => length_cells r⟩
  have hrectangular : Csv.isRectangular (table rows) = true := by
    rw [table_of_ne_nil hne] at hlength ⊢
    rw [Csv.isRectangular, List.all_eq_true]
    exact fun record hmem => beq_iff_eq.mpr (hlength record (List.mem_cons_of_mem _ hmem))
  have hrecords := Csv.read?_write (fun record hmem => visible_of_length (hlength record hmem))
    hrectangular
  have hheader : header.map Csv.fieldRead = header := by decide
  rw [table_of_ne_nil hne] at hrecords ⊢
  rw [List.map_cons, hheader, List.map_map] at hrecords
  unfold read
  rw [hrecords]
  dsimp only
  rw [show List.map Csv.fieldRead ∘ Row.cells = fun r : Row => r.cells.map Csv.fieldRead from rfl,
    mapM_readRow? h]

/-! ## Rows of reports -/

theorem fitsInt64_wrap (d : Int) : Decimal.fitsInt64 (Duration.wrap d) = true := by
  have hleast : (-9223372036854775808 : Int) ≤ Duration.wrap d := Int.le_bmod (by decide)
  have hmost : Duration.wrap d < (9223372036854775808 : Int) := Int.bmod_lt (by decide)
  rw [Decimal.fitsInt64, Bool.and_eq_true, decide_eq_true_eq, decide_eq_true_eq]
  exact ⟨hleast, Int.lt_add_one_iff.mp hmost⟩

theorem regular_rowOf (report : Report Float) (b : Belief Float) : (rowOf report b).Regular where
  time := fitsInt64_wrap _
  lastSeen := by
    change Decimal.fitsInt64 (if b.lastSeen.isUnset then 0 else b.lastSeen.toMilliseconds) = true
    split
    · decide
    · exact fitsInt64_wrap _
  playerId := PlayerId.return_notMem_render b.id
  visibility := by
    change '\r' ∉ b.visibility.name.toList
    cases b.visibility <;> decide
  health := by
    change '\r' ∉ b.health.name.toList
    cases b.health <;> decide
  crouching := by
    change '\r' ∉ b.crouching.name.toList
    cases b.crouching <;> decide

/-! ## Recording -/

structure Attempt where
  report : Report Float
  accepts : Bool

/-- A recorder over a writer: the text that the writer holds, and the rows of the reports whose
recording did not fail. -/
structure Session where
  recorder : Recorder
  text : String
  recorded : List Row

namespace Session

def new : Session :=
  ⟨.new, "", []⟩

def step (s : Session) (a : Attempt) : Session :=
  let (outcome, recorder) := s.recorder.record a.report a.accepts
  { recorder
    text := s.text ++ outcome.text
    recorded := s.recorded ++ if outcome.isFailure then [] else rows a.report }

def run (attempts : List Attempt) : Session :=
  attempts.foldl step new

/-- What the writer holds is the table of the recorded rows, and the recorder knows how many there
are, and whether there are any. -/
structure Sound (s : Session) : Prop where
  text : s.text = Csv.write (table s.recorded)
  headerWritten : s.recorder.headerWritten = !s.recorded.isEmpty
  count : s.recorder.count = s.recorded.length
  regular : ∀ r ∈ s.recorded, r.Regular

/-- The names of the columns come with the first rows and never again. -/
theorem text_append_textOf {s : Session} (h : s.Sound) {report : Report Float}
    (hrows : rows report ≠ []) :
    s.text ++ s.recorder.textOf report = Csv.write (table (s.recorded ++ rows report)) := by
  rw [h.text, Recorder.textOf, h.headerWritten, ← Csv.write_append]
  cases hrecorded : s.recorded with
  | nil =>
      rw [List.nil_append, table_of_ne_nil hrows]
      rfl
  | cons r more =>
      rw [table_of_ne_nil (List.append_ne_nil_of_right_ne_nil _ hrows), List.map_append]
      rfl

theorem rows_eq_nil_iff (report : Report Float) : rows report = [] ↔ report.players = [] :=
  List.map_eq_nil_iff

theorem regular_of_mem_rows {report : Report Float} {r : Row} (h : r ∈ rows report) :
    r.Regular := by
  obtain ⟨b, -, rfl⟩ := List.mem_map.mp h
  exact regular_rowOf report b

/-- A report without players, or one that the writer does not take, leaves all as it is. -/
theorem step_eq_self {s : Session} {a : Attempt}
    (h : a.report.players = [] ∨ a.accepts = false) : s.step a = s := by
  unfold step Recorder.record
  by_cases hplayers : a.report.players = []
  · have hrows : rows a.report = [] := (rows_eq_nil_iff a.report).mpr hplayers
    simp [hplayers, hrows, Outcome.text, Outcome.isFailure]
  · have haccepts : a.accepts = false := h.resolve_left hplayers
    simp [hplayers, haccepts, Outcome.text, Outcome.isFailure]

theorem step_eq {s : Session} {a : Attempt} (hplayers : a.report.players ≠ [])
    (haccepts : a.accepts = true) :
    s.step a = ⟨⟨true, s.recorder.count + a.report.players.length⟩,
      s.text ++ s.recorder.textOf a.report, s.recorded ++ rows a.report⟩ := by
  unfold step Recorder.record
  simp [hplayers, haccepts, Outcome.text, Outcome.isFailure]

theorem sound_step {s : Session} (h : s.Sound) (a : Attempt) : (s.step a).Sound := by
  by_cases hkept : a.report.players = [] ∨ a.accepts = false
  · rw [step_eq_self hkept]
    exact h
  · obtain ⟨hplayers, haccepts⟩ := not_or.mp hkept
    have hrows : rows a.report ≠ [] := fun heq => hplayers ((rows_eq_nil_iff a.report).mp heq)
    rw [step_eq hplayers (Bool.not_eq_false _ ▸ haccepts)]
    exact {
      text := text_append_textOf h hrows
      headerWritten := by simp [hrows]
      count := by simp [h.count, rows]
      regular := by
        intro r hr
        rcases List.mem_append.mp hr with hr | hr
        · exact h.regular r hr
        · exact regular_of_mem_rows hr }

theorem sound_new : new.Sound :=
  ⟨rfl, rfl, rfl, fun _ hr => absurd hr List.not_mem_nil⟩

theorem sound_run (attempts : List Attempt) : (run attempts).Sound := by
  unfold run
  induction attempts using List.reverseRecOn with
  | nil => exact sound_new
  | append_singleton attempts a ih =>
      rw [List.foldl_append]
      exact sound_step ih a

/-- Whatever fails and whatever is empty, the writer holds the table of the recorded rows: the names
of the columns stand once and in front if there is a row, and nothing is written before. The
recorder counts the rows, and the text is read back as these rows. -/
theorem read_text_run (attempts : List Attempt) :
    (run attempts).text = Csv.write (table (run attempts).recorded) ∧
      (table (run attempts).recorded).count header
        = (if (run attempts).recorded.isEmpty then 0 else 1) ∧
      (run attempts).recorder.count = (run attempts).recorded.length ∧
      ((run attempts).recorded ≠ [] →
        read (run attempts).text = .ok ((run attempts).recorded.map Row.softened)) := by
  have hsound := sound_run attempts
  refine ⟨hsound.text, count_header_table _, hsound.count, fun hne => ?_⟩
  rw [hsound.text]
  exact read_write_table hne hsound.regular

def afterFailure : List Attempt :=
  let report (players : List (Belief Float)) : Report Float := ⟨7, ⟨0⟩, Pose.initial, players⟩
  let named (name : String) := report [{ Belief.blank with name }]
  [⟨named "ann", false⟩, ⟨report [], true⟩, ⟨named " a,\r\n\"b\r", true⟩, ⟨named "", true⟩]

theorem read_text_run_afterFailure :
    (run afterFailure).recorded ≠ [] ∧ ∃ found, read (run afterFailure).text = .ok found ∧
      found.map Row.name = [" a,\n\"b\r", ""] := by
  have hne : (run afterFailure).recorded ≠ [] := List.cons_ne_nil _ _
  exact ⟨hne, _, (read_text_run afterFailure).2.2.2 hne, by decide⟩

end Session

end VoxelScout.Trace
