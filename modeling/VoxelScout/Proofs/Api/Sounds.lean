import VoxelScout.Api
import VoxelScout.Proofs.Hearing.Places
import VoxelScout.Proofs.Json.Writing

/-! # Asking what was heard

The sounds that a bot remembers can be told, and streamed with its state, as long as their
positions are finite. Whatever frames arrive, that is so if the sounds arise at moderate places
and none of them extremely close to the bot, but not at its own place.
-/

namespace VoxelScout

open Json

/-! ## Sounds that can be written -/

theorem Vec.writable_iff {v : Vec Float} : Writable v.toJson ↔ v.isFinite = true := by
  simp [Vec.toJson, Vec.isFinite, writable_object_iff, writable_float_iff, and_assoc]

theorem Hearing.Event.writable_iff {e : Event Float} :
    Writable e.toJson ↔ e.position.isFinite = true := by
  have hname : ∀ m ∈ memberIf (e.name != "") "name" (.string e.name), Writable m.2 := by
    unfold memberIf
    split
    · simp [writable_string]
    · simp
  have hid : Writable e.id.toJson := writable_string _
  rw [toJson, writable_object_iff]
  simp only [List.forall_mem_append, List.forall_mem_cons, List.not_mem_nil, false_imp_iff,
    implies_true, and_true, hid, writable_int, writable_string, Vec.writable_iff, true_and]
  exact and_iff_right hname

theorem writable_events {events : List (Hearing.Event Float)} :
    Writable (.array (events.map Hearing.Event.toJson)) ↔
      ∀ e ∈ events, e.position.isFinite = true := by
  simp only [writable_array_iff, List.forall_mem_map, Hearing.Event.writable_iff]

namespace Api

def listed (bot : Bot Float) (category : String) : List (Hearing.Event Float) :=
  if category == "" then bot.hearing.events else bot.hearing.inCategory category

theorem listed_subset {bot : Bot Float} {category : String} {e : Hearing.Event Float}
    (he : e ∈ listed bot category) : e ∈ bot.hearing.events := by
  unfold listed at he
  split at he
  · exact he
  · exact (List.mem_filter.mp he).1

theorem mem_listed {bot : Bot Float} {category : String} {e : Hearing.Event Float}
    (he : e ∈ bot.hearing.events) (hcategory : category = "" ∨ category = e.category) :
    e ∈ listed bot category := by
  unfold listed
  split
  · exact he
  · next hnamed =>
    rcases hcategory with rfl | rfl
    · exact absurd rfl hnamed
    · exact List.mem_filter.mpr ⟨he, beq_self_eq_true _⟩

theorem writable_soundsOf {bot : Bot Float} {category : String} :
    Writable (soundsOf bot category) ↔ ∀ e ∈ listed bot category, e.position.isFinite = true := by
  unfold soundsOf listed
  split
  · exact writable_events
  · cases bot.hearing.inCategory category with
    | nil => simp [Writable, lexemes, Lexeme.proper]
    | cons e rest => exact writable_events

theorem Response.status_ofJson [Diagnostics] (status : Nat) (document : Json) :
    (Response.ofJson status document).status = if document.write?.isSome then status else 500 := by
  unfold Response.ofJson
  cases document.write? <;> rfl

/-- Asking for sounds is answered with them if all their positions are finite, and fails if one is
not. -/
theorem status_sounds [BodyReader] [Diagnostics] {a : Agent} {r : Request}
    (hroute : route r.method r.path = .endpoint .sounds) (now : Instant) :
    (handle a r now).1.status =
      if (soundsOf a.bot (r.parameter "category")).write?.isSome then 200 else 500 := by
  have hserve : serve (a.host? now) a.bot a.line a.line.bridge.stats r now .sounds =
      (Response.ofJson 200 (soundsOf a.bot (r.parameter "category")), a.bot, a.line) :=
    if_pos rfl
  rw [← Response.status_ofJson]
  unfold handle answer
  rw [hroute]
  dsimp only
  rw [hserve]
  generalize Response.ofJson 200 (soundsOf a.bot (r.parameter "category")) = response
  split
  · rfl
  · rfl

/-- The state of a bot is streamed if all positions of sounds are finite and the rest of it can be
written. -/
theorem isSome_stateMessage?_iff {a : Agent} {now : Instant} :
    (stateMessage? a now).isSome = true ↔
      Writable (a.bot.status now).toJson ∧
        Writable (.array (a.bot.sight.beliefs.map Belief.toJson)) ∧
          ∀ e ∈ a.bot.hearing.events, e.position.isFinite = true := by
  rw [stateMessage?, Wire.Message.ofPayload?, Option.isSome_map, isSome_write?_iff,
    Wire.Payload.toJson, Bot.frame, writable_object_iff]
  simp [writable_events]

/-! ## Whatever frames arrive -/

/-- Between moderate places, a sound is remembered at a finite position exactly where its way is
resolved. If all ways are, sounds are told and the state is streamed as far as the rest of it can
be; otherwise asking for them fails and nothing is streamed. -/
theorem run_told_iff_resolved [BodyReader] [Diagnostics] {fresh : Agent}
    {config : Hearing.Config Float} {seed : UInt64}
    (hfresh : fresh.bot.hearing = Hearing.Tracker.new config seed)
    (hangle : (Trig.radians config.withDefaults.blurAngle).isFinite = true)
    {steps : List Agent.Step}
    (hways : ∀ way ∈ (fresh.soundsOf steps).filterMap Hearing.Step.way?, way.Moderate) :
    let a := fresh.run steps
    let ways := (fresh.soundsOf steps).filterMap Hearing.Step.way?
    (∀ e ∈ a.bot.hearing.events, ∃ way ∈ ways, (e.position.isFinite = true ↔ way.Resolved)) ∧
    ((∀ way ∈ ways, way.Resolved) →
      (∀ e ∈ a.bot.hearing.events, e.position.isFinite = true) ∧
      (∀ r now, route r.method r.path = .endpoint .sounds → (handle a r now).1.status = 200) ∧
      ∀ now, (stateMessage? a now).isSome = true ↔ Writable (a.bot.status now).toJson ∧
        Writable (.array (a.bot.sight.beliefs.map Belief.toJson))) ∧
    ∀ e ∈ a.bot.hearing.events, e.position.isFinite = false →
      (∀ r now, route r.method r.path = .endpoint .sounds →
        r.parameter "category" = "" ∨ r.parameter "category" = e.category →
          (handle a r now).1.status = 500) ∧
      ∀ now, stateMessage? a now = none := by
  intro a ways
  have hhearing : a.bot.hearing = (Hearing.Tracker.new config seed).run (fresh.soundsOf steps) :=
    hfresh ▸ fresh.hearing_run steps
  have hplaced : ∀ e ∈ a.bot.hearing.events,
      ∃ way ∈ ways, (e.position.isFinite = true ↔ way.Resolved) := by
    intro e he
    rw [hhearing] at he
    exact Hearing.Tracker.run_isFinite_iff config seed hangle hways he
  refine ⟨hplaced, fun hresolved => ?_, fun e he hinfinite => ⟨?_, ?_⟩⟩
  · have hfinite : ∀ e ∈ a.bot.hearing.events, e.position.isFinite = true := by
      intro e he
      obtain ⟨way, hway, hiff⟩ := hplaced e he
      exact hiff.mpr (hresolved way hway)
    refine ⟨hfinite, fun r now hroute => ?_, fun now => ?_⟩
    · rw [status_sounds hroute, if_pos]
      rw [isSome_write?_iff, writable_soundsOf]
      exact fun e he => hfinite e (listed_subset he)
    · rw [isSome_stateMessage?_iff]
      exact ⟨fun h => ⟨h.1, h.2.1⟩, fun h => ⟨h.1, h.2, hfinite⟩⟩
  · intro r now hroute hcategory
    rw [status_sounds hroute, if_neg]
    rw [isSome_write?_iff, writable_soundsOf]
    intro hall
    rw [hall e (mem_listed he hcategory)] at hinfinite
    cases hinfinite
  · intro now
    rw [← Option.not_isSome_iff_eq_none, isSome_stateMessage?_iff]
    rintro ⟨-, -, hall⟩
    rw [hall e he] at hinfinite
    cases hinfinite

def listener : Agent :=
  Agent.new ⟨Sight.Config.standard, Hearing.Config.standard, Combat.Config.standard⟩
    Bridge.Config.standard 1 false false ⟨0⟩

/-- A sidecar connects, reports a bot at the origin, and a sound east of it. -/
def knock (distance : String) : List Agent.Step :=
  let now : Instant := ⟨1000000000000⟩
  let frame (kind data : String) :=
    Text.bytes ("\x7b\"type\":\"" ++ kind ++ "\",\"data\":\x7b" ++ data ++ "\x7d\x7d")
  let sound := "\"id\":1,\"category\":6,\"origin\":\x7b\"x\":" ++ distance ++ "\x7d"
  [.connect PlayerId.nil "a" now, .receive ⟨1⟩ "a" (frame "tick" "\"self\":\x7b\x7d") now now,
    .receive ⟨2⟩ "a" (frame "sound" sound) now now]

def soundsRequest : Request :=
  ⟨"GET", "/api/sounds", "", []⟩

/-- A server to which no body is readable: the requests here have none. -/
local instance bodyless : BodyReader :=
  ⟨fun _ _ => none, fun _ _ => none, fun _ _ => none⟩

local instance unsupported : Diagnostics :=
  ⟨fun _ _ => "", fun _ => "json: unsupported value: NaN"⟩

theorem route_soundsRequest :
    route soundsRequest.method soundsRequest.path = .endpoint .sounds := by
  decide +kernel

/-- A knock one step away is remembered and told. -/
theorem run_told_iff_resolved_knock :
    (listener.run (knock "1")).bot.hearing.events.length = 1 ∧
      (∀ e ∈ (listener.run (knock "1")).bot.hearing.events, e.position.isFinite = true) ∧
      (handle (listener.run (knock "1")) soundsRequest ⟨1000000000000⟩).1.status = 200 := by
  have hways : (listener.soundsOf (knock "1")).filterMap Hearing.Step.way? =
      [⟨⟨1, 0, 0⟩, ⟨0, 0, 0⟩⟩] := by
    decide +kernel
  have hmoderate : ∀ way ∈ (listener.soundsOf (knock "1")).filterMap Hearing.Step.way?,
      way.Moderate := by
    rw [hways]
    decide +kernel
  have hresolved : ∀ way ∈ (listener.soundsOf (knock "1")).filterMap Hearing.Step.way?,
      way.Resolved := by
    rw [hways]
    decide +kernel
  have hfresh : listener.bot.hearing = Hearing.Tracker.new Hearing.Config.standard 1 := rfl
  obtain ⟨-, htold, -⟩ := run_told_iff_resolved hfresh (by decide +kernel) hmoderate
  obtain ⟨hfinite, hanswered, -⟩ := htold hresolved
  exact ⟨by decide +kernel, hfinite, hanswered soundsRequest _ route_soundsRequest⟩

/-- A knock next to the bot is taken and remembered, with finite numbers throughout; and then
asking for sounds fails, and the state is not streamed. -/
theorem close_knock_not_told :
    ((listener.run (knock "1e-310")).line.bridge.counters.received = 2 ∧
      (listener.run (knock "1e-310")).line.bridge.counters.rejected = 0 ∧
      (listener.soundsOf (knock "1e-310")).filterMap Hearing.Step.way? =
        [⟨⟨1e-310, 0, 0⟩, ⟨0, 0, 0⟩⟩] ∧
      (Hearing.Config.standard : Hearing.Config Float).blurAngle.isFinite = true) ∧
    ((listener.run (knock "1e-310")).bot.hearing.events.map fun e => e.position.isFinite) =
      [false] ∧
    (handle (listener.run (knock "1e-310")) soundsRequest ⟨1000000000000⟩).1.status = 500 ∧
    stateMessage? (listener.run (knock "1e-310")) ⟨1000000000000⟩ = none := by
  have hinfinite : ((listener.run (knock "1e-310")).bot.hearing.events.map
      fun e => e.position.isFinite) = [false] := by
    decide +kernel
  refine ⟨by decide +kernel, hinfinite, by decide +kernel, ?_⟩
  generalize listener.run (knock "1e-310") = a at hinfinite
  rw [← Option.not_isSome_iff_eq_none, isSome_stateMessage?_iff]
  rintro ⟨-, -, hall⟩
  have hmem : false ∈ a.bot.hearing.events.map fun e => e.position.isFinite := by
    rw [hinfinite]
    exact List.mem_cons_self
  obtain ⟨e, he, hvalue⟩ := List.mem_map.mp hmem
  rw [hall e he] at hvalue
  cases hvalue

end Api

end VoxelScout
