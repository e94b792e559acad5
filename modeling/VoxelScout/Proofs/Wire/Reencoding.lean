import VoxelScout.Proofs.Text.Utf8
import VoxelScout.Proofs.Wire.Envelope

/-! # Messages written again

The data of a message is rewritten as text, without being decoded: its blanks are dropped and
the hazards in its strings escaped. The text that results stands for the same message, and
writing it once more changes nothing.
-/

namespace VoxelScout.Wire.Message

open Json

/-! ## What a message that was read holds -/

theorem document_of_parse {bytes : List UInt8} {m : Message} (h : parse bytes = .ok m) :
    m.kind ≠ "" ∧ ∃ doc, read? bytes = some doc ∧ ofDocument? doc = some m := by
  unfold parse at h
  split at h
  · cases h
  · next m' hdoc =>
    obtain ⟨doc, hread, hof⟩ := Option.bind_eq_some_iff.mp hdoc
    split at h
    · cases h
    · next hkind =>
      cases h
      exact ⟨by simpa using hkind, doc, hread, hof⟩

theorem fitsInt64_of_ofDocument? {doc : Document} {m : Message} (h : ofDocument? doc = some m) :
    Decimal.fitsInt64 m.time = true := by
  unfold ofDocument? at h
  split at h
  · cases h
    decide
  · simp only [Option.bind_eq_bind, Option.bind_eq_some_iff, Option.pure_def] at h
    obtain ⟨kind, -, time, htime, heq⟩ := h
    cases heq
    exact field_invariant (fun _ _ _ => fitsInt64_of_asInt) (by decide) htime
  · cases h

theorem exists_raw_of_rawField? {raws : List (String × List UInt8)} {name : String}
    {bytes : List UInt8} (h : rawField? raws name = some bytes) : ∃ raw ∈ raws, raw.2 = bytes := by
  obtain ⟨raw, hlast, hbytes⟩ := Option.map_eq_some_iff.mp h
  exact ⟨raw, (List.mem_filter.mp (List.mem_of_getLast? hlast)).1, hbytes⟩

/-- The data of a message is a document of its own, which leaves room for the message around
it. -/
theorem read?_data_of_ofDocument? {doc : Document} (hdoc : doc.Sound) {m : Message}
    (h : ofDocument? doc = some m) {bytes : List UInt8} (hdata : m.data = some bytes) :
    ∃ inner, read? bytes = some inner ∧ inner.value.height < nestingLimit := by
  unfold ofDocument? at h
  split at h
  · cases h
    cases hdata
  · next members hvalue =>
    simp only [Option.bind_eq_bind, Option.bind_eq_some_iff, Option.pure_def] at h
    obtain ⟨kind, -, time, -, heq⟩ := h
    cases heq
    obtain ⟨raw, hraw, rfl⟩ := exists_raw_of_rawField? hdata
    exact hdoc.read?_rawMember hvalue hraw
  · cases h

/-! ## The data written again -/

/-- Tokens without hazards are written as they stand. -/
theorem dataLexemes?_content {m : Message} {c : Content} (hdata : m.data = some c.bytes)
    (hrow : c.row.map Lexeme.harden = c.row) :
    m.dataLexemes? = some (.comma :: member "data" c.row) := by
  have htokens : (Document.bare c.row c.value).tokens.map (fun t => t.lexeme.harden) = c.row := by
    simpa [Document.bare, Function.comp_def] using hrow
  rw [dataLexemes?_of_read? hdata c.read?_bytes, htokens]

/-! ## The same message -/

/-- Two messages say the same: they have the same type and time, and whatever their data is
read as, it is read as the same value or refused by both. -/
structure SaysSame (m m' : Message) : Prop where
  kind : m'.kind = m.kind
  time : m'.time = m.time
  decode? : ∀ {α : Type} (read : Decoder α) (fresh : α),
    m'.decode? read fresh = m.decode? read fresh

theorem SaysSame.ofMessage? {m m' : Message} (h : SaysSame m m') (kind : String) :
    Payload.ofMessage? kind m' = Payload.ofMessage? kind m := by
  simp only [Payload.ofMessage?, h.decode?]

/-- A message that was read can be written, and what is written is read as a message that says
the same and is written in the same way. -/
theorem write?_of_parse {bytes : List UInt8} {m : Message} (h : parse bytes = .ok m) :
    ∃ written m', m.write? = some written ∧ parse written = .ok m' ∧ SaysSame m m' ∧
      (∀ kind, Payload.ofMessage? kind m' = Payload.ofMessage? kind m) ∧
      m'.write? = some written := by
  obtain ⟨hkind, doc, hread, hof⟩ := document_of_parse h
  have htime := fitsInt64_of_ofDocument? hof
  cases hdata : m.data with
  | none =>
      have hlexemes : m.dataLexemes? = some [] := by rw [dataLexemes?, hdata]
      have hwrite := write?_eq_envelope m none hlexemes
      have hsame : SaysSame m m := ⟨rfl, rfl, fun _ _ => rfl⟩
      refine ⟨_, m, hwrite, ?_, hsame, hsame.ofMessage?, hwrite⟩
      rw [parse_envelope hkind htime none, Option.map_none, ← hdata]
  | some data =>
      obtain ⟨inner, hinner, hshallow⟩ :=
        read?_data_of_ofDocument? (sound_of_read? hread) hof hdata
      let c := Content.ofDocument inner (sound_of_read? hinner) hshallow
      have hrow : c.row.map Lexeme.harden = c.row := by
        simp [c, Content.ofDocument, Lexeme.harden_harden]
      have hwrite : m.write? = some (envelope m.kind m.time (some c)) :=
        write?_of_read? hdata hinner hshallow
      let m' : Message := ⟨m.kind, m.time, some c.bytes⟩
      have hwrite' := write?_eq_envelope m' (some c) (dataLexemes?_content rfl hrow)
      have hsame : SaysSame m m' := by
        refine ⟨rfl, rfl, fun read fresh => ?_⟩
        rw [decode?_of_read? hdata hinner]
        exact decode?_of_read? rfl c.read?_bytes read fresh
      exact ⟨_, m', hwrite, parse_envelope hkind htime (some c), hsame, hsame.ofMessage?, hwrite'⟩

/-- Data with blanks, an unknown key and all five hazards, in which one byte is no text. -/
def roughData : List UInt8 :=
  Text.bytes "\x7b \"<a>\" : [ ] , \"message\" :\"<&>\u2028\u2029" ++ 0xff :: Text.bytes "\" \x7d"

def roughChat : List UInt8 :=
  Text.bytes " \x7b \"TYPE\" :\"chat\", \"ts\":7 ,\"data\": null, \"Data\" : " ++ roughData
    ++ Text.bytes " \x7d\n"

theorem write?_of_parse_roughChat :
    parse roughChat = .ok ⟨"chat", 7, some roughData⟩ ∧
      ∃ written m', write? ⟨"chat", 7, some roughData⟩ = some written ∧ parse written = .ok m' ∧
        SaysSame ⟨"chat", 7, some roughData⟩ m' ∧
        (∀ kind, Payload.ofMessage? kind m' =
          Payload.ofMessage? kind ⟨"chat", 7, some roughData⟩) ∧
        m'.write? = some written ∧ 0xff ∈ written := by
  have h : parse roughChat = .ok ⟨"chat", 7, some roughData⟩ := by decide +kernel
  have hkept : ((write? ⟨"chat", 7, some roughData⟩).getD []).contains 0xff = true := by
    decide +kernel
  obtain ⟨written, m', hwrite, hparse, hsame, hdecoded, hagain⟩ := write?_of_parse h
  rw [hwrite] at hkept
  exact ⟨h, written, m', hwrite, hparse, hsame, hdecoded, hagain, by simpa using hkept⟩

end VoxelScout.Wire.Message
