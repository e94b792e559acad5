import VoxelScout.Proofs.Snapshot.Codec
import VoxelScout.Proofs.Text.Utf8
import VoxelScout.Proofs.Wire.Envelope

/-! # Data sent and received

Data of every type that is both written and read survives its way through the bytes of a
message: what comes back is what was sent.
-/

namespace VoxelScout

open Json

namespace Hearing.RawSound

def sheet (s : RawSound Float) : Sheet where
  fields := [("id", some (.int s.id)), ("category", some (.int s.category)),
    ("name", if s.name != "" then some (.string s.name) else none),
    ("origin", some s.origin.toJson)]

theorem toJson_eq (s : RawSound Float) : s.toJson = s.sheet.toJson := by
  simp only [toJson, Sheet.toJson, sheet, present_some, present_if, present_nil, List.cons_append,
    List.nil_append]

theorem shallow_toJson {s : RawSound Float} (h : ∀ x ∈ s.origin.floats, x.isFinite = true)
    (n : Nat) : Shallow (n + 2) s.toJson := by
  rw [toJson_eq]
  apply Sheet.shallow_toJson
  simp only [sheet, List.forall_mem_cons, shallowField_some, shallowField_if, shallow_int,
    shallow_string, Vec.shallow_toJson h, List.not_mem_nil, false_implies, implies_true, and_self]

theorem decode_toJson {s : RawSound Float} (hfloats : ∀ x ∈ s.origin.floats, x.isFinite = true)
    (hid : Decimal.fitsInt64 s.id = true) (hcategory : Decimal.fitsInt64 s.category = true) :
    decode blank s.toJson = some s := by
  have hfield {α : Type} := @Sheet.field_at α s.sheet
  rw [toJson_eq]
  simp only [decode, Sheet.toJson, record, hfield 0 rfl, hfield 1 rfl, hfield 2 rfl, hfield 3 rfl,
    Option.elim_some, asInt_int hid, asInt_int hcategory, blank, elim_unless_empty,
    Vec.decode_toJson hfloats]
  rfl

end Hearing.RawSound

namespace Wire

/-! ## Lists that may be absent -/

theorem shallow_listOrNull {α : Type} {n : Nat} {f : α → Json} {o : Option (List α)}
    (h : ∀ a ∈ o.getD [], Shallow n (f a)) : Shallow (n + 1) (listOrNull f o) := by
  cases o with
  | none => exact shallow_null (n + 1)
  | some items =>
      apply shallow_array
      intro v hv
      obtain ⟨a, ha, rfl⟩ := List.mem_map.mp hv
      exact h a ha

/-- An absent list and an empty one are told apart. -/
theorem slots_listOrNull {α β : Type} {read : Decoder β} {fresh : β} {f : α → Json} {g : α → β}
    {o : Option (List α)} (h : ∀ a ∈ o.getD [], read fresh (f a) = some (g a)) :
    slots read fresh ⟨none, []⟩ (listOrNull f o) = some ⟨o.map (·.map g), []⟩ := by
  cases o with
  | none => rfl
  | some items => exact slots_array h rfl rfl

/-! ## Data of each type -/

namespace Tick

def sheet (t : Tick) : Sheet where
  fields := [("self", some t.self.toJson), ("players", some (listOrNull Player.toJson t.players))]

theorem toJson_eq (t : Tick) : t.toJson = t.sheet.toJson :=
  rfl

def floats (t : Tick) : List Float :=
  t.self.floats ++ (t.players.getD []).flatMap Player.floats

def ints (t : Tick) : List Int :=
  t.self.ints ++ (t.players.getD []).flatMap Player.ints

def asRead (t : Tick) : Tick :=
  { t with players := t.players.map (·.map Player.asRead) }

theorem shallow_toJson {t : Tick} (h : ∀ x ∈ t.floats, x.isFinite = true) (n : Nat) :
    Shallow (n + 4) t.toJson := by
  simp only [floats, List.forall_mem_append, List.forall_mem_flatMap] at h
  have hplayers : Shallow (n + 3) (listOrNull Player.toJson t.players) :=
    shallow_listOrNull fun p hp => Player.shallow_toJson (h.2 p hp) n
  rw [toJson_eq]
  apply Sheet.shallow_toJson
  simp only [sheet, List.forall_mem_cons, shallowField_some, Pose.shallow_toJson h.1, hplayers,
    List.not_mem_nil, false_implies, implies_true, and_self]

theorem decode_toJson {t : Tick} (hfloats : ∀ x ∈ t.floats, x.isFinite = true)
    (hints : ∀ i ∈ t.ints, Decimal.fitsInt64 i = true) :
    decode blank t.toJson = some t.asRead := by
  simp only [floats, List.forall_mem_append, List.forall_mem_flatMap] at hfloats
  simp only [ints, List.forall_mem_append, List.forall_mem_flatMap] at hints
  have hfield {α : Type} := @Sheet.field_at α t.sheet
  have hself := Pose.decodeDraft_toJson hfloats.1 hints.1
  have hplayers : slots Player.decode Player.blank ⟨none, []⟩ (listOrNull Player.toJson t.players)
      = some ⟨t.players.map (·.map Player.asRead), []⟩ :=
    slots_listOrNull fun p hp => Player.decode_toJson (hfloats.2 p hp) (hints.2 p hp)
  rw [toJson_eq]
  simp only [decode, Sheet.toJson, record, listField, hfield 0 rfl, hfield 1 rfl,
    Option.elim_some, blank, hself, hplayers]
  rfl

end Tick

namespace Blocks

def sheet (b : Blocks) : Sheet where
  fields := [("reset", if b.reset then some (.bool true) else none),
    ("updates", some (listOrNull BlockUpdate.toJson b.updates))]

theorem toJson_eq (b : Blocks) : b.toJson = b.sheet.toJson := by
  simp only [toJson, Sheet.toJson, sheet, present_some, present_if, present_nil]

def ints (b : Blocks) : List Int :=
  (b.updates.getD []).flatMap BlockUpdate.ints

theorem shallow_toJson (b : Blocks) (n : Nat) : Shallow (n + 3) b.toJson := by
  have hupdates : Shallow (n + 2) (listOrNull BlockUpdate.toJson b.updates) :=
    shallow_listOrNull fun u _ => u.shallow_toJson n
  rw [toJson_eq]
  apply Sheet.shallow_toJson
  simp only [sheet, List.forall_mem_cons, shallowField_some, shallowField_if, shallow_bool,
    hupdates, List.not_mem_nil, false_implies, implies_true, and_self]

theorem decode_toJson {b : Blocks} (h : ∀ i ∈ b.ints, Decimal.fitsInt64 i = true) :
    decode blank b.toJson = some b := by
  simp only [ints, List.forall_mem_flatMap] at h
  have hfield {α : Type} := @Sheet.field_at α b.sheet
  have hreset : (if b.reset then some (Json.bool true) else none).elim (some false)
      (asBool false) = some b.reset := by
    cases b.reset <;> rfl
  have hupdates : slots BlockUpdate.decode BlockUpdate.blank ⟨none, []⟩
      (listOrNull BlockUpdate.toJson b.updates) = some ⟨b.updates.map (·.map fun u => u), []⟩ :=
    slots_listOrNull fun u hu => BlockUpdate.decode_toJson (h u hu)
  simp only [List.map_id', Option.map_id'] at hupdates
  rw [toJson_eq]
  simp only [decode, Sheet.toJson, record, listField, hfield 0 rfl, hfield 1 rfl, Option.elim_some,
    blank, hreset, hupdates]
  rfl

end Blocks

namespace Control

def sheet (c : Control) : Sheet where
  fields := [("control", some (.string c.control)), ("state", some (.bool c.state))]

theorem toJson_eq (c : Control) : c.toJson = c.sheet.toJson :=
  rfl

theorem shallow_toJson (c : Control) (n : Nat) : Shallow (n + 1) c.toJson := by
  rw [toJson_eq]
  apply Sheet.shallow_toJson
  simp only [sheet, List.forall_mem_cons, shallowField_some, shallow_string, shallow_bool,
    List.not_mem_nil, false_implies, implies_true, and_self]

theorem decode_toJson (c : Control) : decode blank c.toJson = some c := by
  have hfield {α : Type} := @Sheet.field_at α c.sheet
  rw [toJson_eq]
  simp only [decode, Sheet.toJson, record, hfield 0 rfl, hfield 1 rfl, Option.elim_some]
  rfl

end Control

namespace Attack

def sheet (a : Attack) : Sheet where
  fields := [("target", some a.target.toJson)]

theorem toJson_eq (a : Attack) : a.toJson = a.sheet.toJson :=
  rfl

theorem shallow_toJson (a : Attack) (n : Nat) : Shallow (n + 1) a.toJson := by
  rw [toJson_eq]
  apply Sheet.shallow_toJson
  simp only [sheet, PlayerId.toJson, List.forall_mem_cons, shallowField_some, shallow_string,
    List.not_mem_nil, false_implies, implies_true, and_self]

theorem decode_toJson (a : Attack) : decode blank a.toJson = some a := by
  have hfield {α : Type} := @Sheet.field_at α a.sheet
  rw [toJson_eq]
  simp only [decode, Sheet.toJson, record, hfield 0 rfl, Option.elim_some, PlayerId.decode_toJson]
  rfl

end Attack

namespace Look

def sheet (l : Look) : Sheet where
  fields := [("yaw", some (.float l.heading.yaw)), ("pitch", some (.float l.heading.pitch))]

theorem toJson_eq (l : Look) : l.toJson = l.sheet.toJson :=
  rfl

theorem shallow_toJson {l : Look} (hyaw : l.heading.yaw.isFinite = true)
    (hpitch : l.heading.pitch.isFinite = true) (n : Nat) : Shallow (n + 1) l.toJson := by
  rw [toJson_eq]
  apply Sheet.shallow_toJson
  simp only [sheet, List.forall_mem_cons, shallowField_some, shallow_float hyaw,
    shallow_float hpitch, List.not_mem_nil, false_implies, implies_true, and_self]

theorem decode_toJson {l : Look} (hyaw : l.heading.yaw.isFinite = true)
    (hpitch : l.heading.pitch.isFinite = true) : decode blank l.toJson = some l := by
  have hfield {α : Type} := @Sheet.field_at α l.sheet
  rw [toJson_eq]
  simp only [decode, Sheet.toJson, record, hfield 0 rfl, hfield 1 rfl, Option.elim_some,
    asFloat_float hyaw, asFloat_float hpitch]
  rfl

end Look

namespace Chat

def sheet (c : Chat) : Sheet where
  fields := [("message", some (.string c.message))]

theorem toJson_eq (c : Chat) : c.toJson = c.sheet.toJson :=
  rfl

theorem shallow_toJson (c : Chat) (n : Nat) : Shallow (n + 1) c.toJson := by
  rw [toJson_eq]
  apply Sheet.shallow_toJson
  simp only [sheet, List.forall_mem_cons, shallowField_some, shallow_string, List.not_mem_nil,
    false_implies, implies_true, and_self]

theorem decode_toJson (c : Chat) : decode blank c.toJson = some c := by
  have hfield {α : Type} := @Sheet.field_at α c.sheet
  rw [toJson_eq]
  simp only [decode, Sheet.toJson, record, hfield 0 rfl, Option.elim_some]
  rfl

end Chat

namespace Ping

def sheet (p : Ping) : Sheet where
  fields := [("id", some (.string p.id)), ("ts", some (.int p.time))]

theorem toJson_eq (p : Ping) : p.toJson = p.sheet.toJson :=
  rfl

theorem shallow_toJson (p : Ping) (n : Nat) : Shallow (n + 1) p.toJson := by
  rw [toJson_eq]
  apply Sheet.shallow_toJson
  simp only [sheet, List.forall_mem_cons, shallowField_some, shallow_string, shallow_int,
    List.not_mem_nil, false_implies, implies_true, and_self]

theorem decode_toJson {p : Ping} (h : Decimal.fitsInt64 p.time = true) :
    decode blank p.toJson = some p := by
  have hfield {α : Type} := @Sheet.field_at α p.sheet
  rw [toJson_eq]
  simp only [decode, Sheet.toJson, record, hfield 0 rfl, hfield 1 rfl, Option.elim_some,
    asInt_int h]
  rfl

end Ping

namespace Pong

def sheet (p : Pong) : Sheet where
  fields := [("id", some (.string p.id)), ("ping_ts", some (.int p.pingTime)),
    ("pong_ts", some (.int p.pongTime)), ("latency_ms", some (.int p.latency))]

theorem toJson_eq (p : Pong) : p.toJson = p.sheet.toJson :=
  rfl

theorem shallow_toJson (p : Pong) (n : Nat) : Shallow (n + 1) p.toJson := by
  rw [toJson_eq]
  apply Sheet.shallow_toJson
  simp only [sheet, List.forall_mem_cons, shallowField_some, shallow_string, shallow_int,
    List.not_mem_nil, false_implies, implies_true, and_self]

theorem decode_toJson {p : Pong} (hping : Decimal.fitsInt64 p.pingTime = true)
    (hpong : Decimal.fitsInt64 p.pongTime = true)
    (hlatency : Decimal.fitsInt64 p.latency = true) : decode blank p.toJson = some p := by
  have hfield {α : Type} := @Sheet.field_at α p.sheet
  rw [toJson_eq]
  simp only [decode, Sheet.toJson, record, hfield 0 rfl, hfield 1 rfl, hfield 2 rfl, hfield 3 rfl,
    Option.elim_some, asInt_int hping, asInt_int hpong, asInt_int hlatency]
  rfl

end Pong

/-! ## Data of any type -/

namespace Payload

/-- Data of this type is both written and read. -/
def Exchanged : Payload → Prop
  | .refusal _ => False
  | .state _ => False
  | _ => True

def floats : Payload → List Float
  | .tick d => d.floats
  | .sound d => d.origin.floats
  | .look d => [d.heading.yaw, d.heading.pitch]
  | _ => []

def ints : Payload → List Int
  | .tick d => d.ints
  | .sound d => [d.id, d.category]
  | .blocks d => d.ints
  | .ping d => [d.time]
  | .pong d => [d.pingTime, d.pongTime, d.latency]
  | _ => []

def asRead : Payload → Payload
  | .tick d => .tick d.asRead
  | p => p

theorem shallow_toJson {p : Payload} (hp : p.Exchanged) (h : ∀ x ∈ p.floats, x.isFinite = true) :
    Shallow 4 p.toJson := by
  cases p with
  | tick d => exact Tick.shallow_toJson h 0
  | sound d => exact Hearing.RawSound.shallow_toJson h 2
  | blocks d => exact d.shallow_toJson 1
  | control d => exact d.shallow_toJson 3
  | attack d => exact d.shallow_toJson 3
  | look d =>
      simp only [floats, List.forall_mem_cons] at h
      exact Look.shallow_toJson h.1 h.2.1 3
  | chat d => exact d.shallow_toJson 3
  | ping d => exact d.shallow_toJson 3
  | pong d => exact d.shallow_toJson 3
  | refusal d => exact hp.elim
  | state d => exact hp.elim

theorem ofMessage?_of_read? {p : Payload} (hp : p.Exchanged)
    (hfloats : ∀ x ∈ p.floats, x.isFinite = true) (hints : ∀ i ∈ p.ints, Decimal.fitsInt64 i = true)
    {m : Message} {bytes : List UInt8} (hdata : m.data = some bytes) {doc : Document}
    (hread : read? bytes = some doc) (hvalue : doc.value = p.toJson) :
    ofMessage? p.kind m = some (some p.asRead) := by
  have hdecode {α : Type} (read : Decoder α) (fresh : α) :
      m.decode? read fresh = read fresh p.toJson := by
    rw [Message.decode?_of_read? hdata hread, hvalue]
  cases p with
  | tick d =>
      simp [ofMessage?, kind, hdecode, toJson, Tick.decode_toJson hfloats hints, asRead]
  | sound d =>
      simp only [ints, List.forall_mem_cons] at hints
      simp [ofMessage?, kind, hdecode, toJson,
        Hearing.RawSound.decode_toJson hfloats hints.1 hints.2.1, asRead]
  | blocks d => simp [ofMessage?, kind, hdecode, toJson, Blocks.decode_toJson hints, asRead]
  | control d => simp [ofMessage?, kind, hdecode, toJson, Control.decode_toJson, asRead]
  | attack d => simp [ofMessage?, kind, hdecode, toJson, Attack.decode_toJson, asRead]
  | look d =>
      simp only [floats, List.forall_mem_cons] at hfloats
      simp [ofMessage?, kind, hdecode, toJson, Look.decode_toJson hfloats.1 hfloats.2.1, asRead]
  | chat d => simp [ofMessage?, kind, hdecode, toJson, Chat.decode_toJson, asRead]
  | ping d =>
      simp only [ints, List.forall_mem_cons] at hints
      simp [ofMessage?, kind, hdecode, toJson, Ping.decode_toJson hints.1, asRead]
  | pong d =>
      simp only [ints, List.forall_mem_cons] at hints
      simp [ofMessage?, kind, hdecode, toJson,
        Pong.decode_toJson hints.1 hints.2.1 hints.2.2.1, asRead]
  | refusal d => exact hp.elim
  | state d => exact hp.elim

theorem kind_ne_empty (p : Payload) : p.kind ≠ "" := by
  cases p <;> simp [kind]

end Payload

/-- What is sent is received. -/
theorem Message.ofMessage?_parse_write {p : Payload} (hp : p.Exchanged)
    (hfloats : ∀ x ∈ p.floats, x.isFinite = true)
    (hints : ∀ i ∈ p.ints, Decimal.fitsInt64 i = true) {time : Int}
    (htime : Decimal.fitsInt64 time = true) :
    ∃ m bytes m', ofPayload? p time = some m ∧ m.write? = some bytes ∧ parse bytes = .ok m' ∧
      m'.kind = p.kind ∧ m'.time = time ∧ Payload.ofMessage? p.kind m' = some (some p.asRead) := by
  have hshallow := Payload.shallow_toJson hp hfloats
  have hlimit : p.toJson.height < nestingLimit :=
    hshallow.height.trans_lt (by decide)
  have hread := hshallow.writable.read?_bytes hlimit.le
  let c := Content.ofDocument _ (sound_of_read? hread) hlimit
  have hwrite := write?_of_read? (m := ⟨p.kind, time, some p.toJson.bytes⟩) rfl hread hlimit
  exact ⟨_, _, ⟨p.kind, time, some c.bytes⟩, ofPayload?_of_writable p hshallow.writable time,
    hwrite, parse_envelope p.kind_ne_empty htime (some c), rfl, rfl,
    Payload.ofMessage?_of_read? hp hfloats hints rfl c.read?_bytes rfl⟩

/-- A step whose roster has somebody with an unnamed hat, no health, and a width of negative
zero. -/
def roster : Tick where
  self := { (Pose.initial : Pose Float) with
    name := "<bot>", heading := ⟨-0.0, 1e-7⟩, effects := [15, -28], heldItem := some {} }
  players := some [
    { (Player.blank : Player Float) with
      position := ⟨0.1, -64.5, 3e22⟩, width := -0.0, height := 1.8, head := some {},
      status := 255, health := some 0 }]

theorem Message.ofMessage?_parse_write_roster :
    ∃ m bytes m', ofPayload? (.tick roster) 1700000000000 = some m ∧ m.write? = some bytes ∧
      parse bytes = .ok m' ∧ m'.kind = "tick" ∧ m'.time = 1700000000000 ∧
      Payload.ofMessage? "tick" m' = some (some (.tick roster.asRead)) :=
  ofMessage?_parse_write (p := .tick roster) trivial (by decide +kernel) (by decide +kernel)
    (by decide)

end Wire

end VoxelScout
