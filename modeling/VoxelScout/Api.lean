import VoxelScout.Agent
import VoxelScout.Api.Route

/-! # The inspection interface

What a bot believes can be read, and the bot can be told to act. A request that reads, and
one that is denied, changes nothing; a request that is granted does one thing.
-/

namespace VoxelScout.Api

inductive Denial where
  | invalidId
  | notTracked
  | noEnemy
  | unknownControl
  | badDuration
  | badHeading
  | notLocated
  | noMessage
  deriving DecidableEq, Repr

namespace Denial

def status : Denial → Nat
  | .notTracked => 404
  | .noEnemy => 404
  | .notLocated => 404
  | _ => 400

def message : Denial → String
  | .invalidId => "invalid player id"
  | .notTracked => "player not tracked"
  | .noEnemy => "no enemy located"
  | .unknownControl => "unknown control"
  | .badDuration => "duration_ms must be positive"
  | .badHeading => "yaw and pitch are required"
  | .notLocated => "player not located"
  | .noMessage => "message is required"

def response [Json.Diagnostics] (d : Denial) : Response :=
  Response.ofJson d.status (.object [("error", .string d.message)])

end Denial

inductive Order where
  | attack (target : PlayerId)
  | hold (axis : Axis) (milliseconds : Int)
  | look (heading : Heading Float)
  /-- Look at a player, at the given point of its body. -/
  | lookAt (player : PlayerId) (target : Vec Float)
  | chat (message : String)

/-! ## Reading bodies -/

open Json

/-- How bodies that are not JSON are read. What they do not tell is zero, empty, or absent. -/
class BodyReader where
  duration? : Encoding → Request → Option Int64
  angles? : Encoding → Request → Option (Option Float × Option Float)
  message? : Encoding → Request → Option String

section Bodies

variable [BodyReader]

def Request.duration? (r : Request) : Option Int :=
  r.decode? (record (fun ms n => field ms "duration_ms" asInt n) 0)
    fun encoding r => (BodyReader.duration? encoding r).map Int64.toInt

def Request.angles? (r : Request) : Option (Option Float × Option Float) :=
  let read := record fun ms h => do
    let yaw ← field ms "yaw" (optional asFloat 0) h.1
    let pitch ← field ms "pitch" (optional asFloat 0) h.2
    pure (yaw, pitch)
  r.decode? (read (none, none)) BodyReader.angles?

def Request.message? (r : Request) : Option String :=
  r.decode? (record (fun ms t => field ms "message" asString t) "") BodyReader.message?

end Bodies

def playerOf (text : String) : Except Denial PlayerId :=
  match PlayerId.parse? text with
  | some id => .ok id
  | none => .error .invalidId

/-! ## Orders -/

def orderOf [BodyReader] (bot : Bot Float) (r : Request) : Endpoint → Except Denial Order
  | .attack text => (playerOf text).map .attack
  | .control name =>
    match Axis.ofName? name with
    | none => .error .unknownControl
    | some axis =>
      match r.duration? with
      | some n => if 0 < n then .ok (.hold axis n) else .error .badDuration
      | none => .error .badDuration
  | .look =>
    match r.angles? with
    | some (some yaw, some pitch) => .ok (.look ⟨yaw, pitch⟩)
    | _ => .error .badHeading
  | .lookAt text => do
    let id ← playerOf text
    match (bot.sight.player? id).bind (·.position) with
    | some position => .ok (.lookAt id (position.raise (Stature.standard.height / 2)))
    | none => .error .notLocated
  | _ =>
    match r.message? with
    | some message => if (Text.trim message).isEmpty then .error .noMessage else .ok (.chat message)
    | none => .error .noMessage

def spanOf (milliseconds : Int) : Duration :=
  Duration.wrap (Duration.milliseconds milliseconds)

def perform {σ : Type} (host : Option (Host σ Float)) (bot : Bot Float) (s : σ) (now : Instant) :
    Order → Json × Bot Float × σ
  | .attack target =>
    let (sent, outcome) := bot.attack host s target now
    (.object [("target", target.toJson), ("dispatched", .bool sent)], outcome)
  | .hold axis n =>
    (.object [("control", .string axis.name), ("duration_ms", .int n)],
      bot.hold host s axis (spanOf n) now)
  | .look heading =>
    (.object [("yaw", .float heading.yaw), ("pitch", .float heading.pitch)],
      bot.look host s heading)
  | .lookAt player target =>
    (.object [("target", player.toJson), ("position", target.toJson)], bot.lookAt host s target)
  | .chat message => (.object [("sent", .bool true)], bot, Bot.chat host s message)

/-! ## Reading the bot -/

/-- What a bot has heard, of one category if one is named; of a category that was not heard
there is nothing. -/
def soundsOf (bot : Bot Float) (category : String) : Json :=
  if category == "" then .array (bot.hearing.events.map Hearing.Event.toJson)
  else match bot.hearing.inCategory category with
    | [] => .null
    | events => .array (events.map Hearing.Event.toJson)

def tell (bot : Bot Float) (bridge : Json) (r : Request) (now : Instant) :
    Endpoint → Except Denial Json
  | .health =>
    .ok (.object [("status", .string "ok"), ("ticks", .nat bot.ticks),
      ("players", .nat bot.sight.size)])
  | .players => .ok (.array (bot.sight.beliefs.map Belief.toJson))
  | .player text => do
    let id ← playerOf text
    match bot.sight.player? id with
    | some b => .ok b.toJson
    | none => .error .notTracked
  | .nearest =>
    match bot.sight.nearest? with
    | some b => .ok b.toJson
    | none => .error .noEnemy
  | .sounds => .ok (soundsOf bot (r.parameter "category"))
  | .combat => .ok (bot.combatStatus now).toJson
  | .bridge => .ok bridge
  | _ => .ok (bot.status now).toJson

/-! ## Requests -/

section Answers

variable [BodyReader] [Diagnostics] {σ : Type} (host : Option (Host σ Float)) (bot : Bot Float)
  (s : σ) (bridge : Json)

def serve (r : Request) (now : Instant) (e : Endpoint) : Response × Bot Float × σ :=
  if e.reads then
    match tell bot bridge r now e with
    | .ok document => (Response.ofJson 200 document, bot, s)
    | .error d => (d.response, bot, s)
  else match orderOf bot r e with
    | .error d => (d.response, bot, s)
    | .ok order =>
      let (document, outcome) := perform host bot s now order
      (Response.ofJson 200 document, outcome)

def answer (r : Request) (now : Instant) : Response × Bot Float × σ :=
  let (response, outcome) := match route r.method r.path with
    | .endpoint e => serve host bot s bridge r now e
    | .stream => (⟨426, .text "Upgrade Required"⟩, bot, s)
    | .methodNotAllowed => (⟨405, .text "Method Not Allowed"⟩, bot, s)
    | .invalidMethod => (⟨400, .text "Invalid http method"⟩, bot, s)
    | .notFound => (⟨404, .text ("Cannot " ++ r.method ++ " " ++ pageText r.path)⟩, bot, s)
  (if r.method == "HEAD" then response.headerOnly else response, outcome)

end Answers

def handle [BodyReader] [Diagnostics] (a : Agent) (r : Request) (now : Instant) : Response × Agent :=
  let (response, outcome) := answer (a.host? now) a.bot a.line a.line.bridge.stats r now
  (response, a.withOutcome outcome)

def stateMessage? (a : Agent) (now : Instant) : Option Wire.Message :=
  Wire.Message.ofPayload? (.state (a.bot.frame now)) now.toMilliseconds

end VoxelScout.Api
