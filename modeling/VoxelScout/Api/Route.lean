import VoxelScout.Api.Request

/-! # Where requests go

Each endpoint has a path and a method. Paths are compared without regard to case and to
slashes at their end; the last part of some paths is a parameter, which is taken as it is
written.
-/

namespace VoxelScout.Api

inductive Endpoint where
  | health
  | status
  | players
  | player (id : String)
  | nearest
  | sounds
  | combat
  | bridge
  | attack (id : String)
  | control (name : String)
  | look
  | lookAt (id : String)
  | chat
  deriving DecidableEq, Repr

namespace Endpoint

def reads : Endpoint → Bool
  | .attack _ => false
  | .control _ => false
  | .look => false
  | .lookAt _ => false
  | .chat => false
  | _ => true

def fixed : List (String × Endpoint) :=
  [("/health", .health), ("/api/status", .status), ("/api/players", .players),
    ("/api/nearest", .nearest), ("/api/sounds", .sounds), ("/api/combat", .combat),
    ("/api/bridge", .bridge), ("/api/look", .look), ("/api/chat", .chat)]

def parametric : List (String × (String → Endpoint)) :=
  [("/api/players/", .player), ("/api/attack/", .attack), ("/api/controls/", .control),
    ("/api/look/", .lookAt)]

/-- The path as it is compared: in lower case, without slashes at its end. -/
def comparable (path : List Char) : List Char :=
  let lowered := path.map Text.lowerAscii
  if lowered.length ≤ 1 then lowered else (lowered.reverse.dropWhile (· == '/')).reverse

def ofPath? (path : List Char) : Option Endpoint :=
  let compared := comparable path
  match fixed.find? fun e => e.1.toList == compared with
  | some e => some e.2
  | none =>
    parametric.findSome? fun (start, endpoint) =>
      let parameter := compared.drop start.length
      if start.toList.isPrefixOf compared && !parameter.isEmpty && !parameter.contains '/' then
        some (endpoint (String.ofList ((path.drop start.length).takeWhile (· != '/'))))
      else none

end Endpoint

def methods : List String :=
  ["GET", "HEAD", "POST", "PUT", "DELETE", "CONNECT", "OPTIONS", "TRACE", "PATCH"]

inductive Route where
  | endpoint (target : Endpoint)
  /-- Streams: to be asked for with an upgrade of the connection. -/
  | stream
  | notFound
  | methodNotAllowed
  | invalidMethod
  deriving DecidableEq, Repr

/-- Where a method and a path lead. Asking for the header only is reading. -/
def route (method : String) (path : List Char) : Route :=
  if !methods.contains method then .invalidMethod
  else if "/ws".toList.isPrefixOf (Endpoint.comparable path) then .stream
  else match Endpoint.ofPath? path with
    | none => .notFound
    | some e =>
      let fits := if e.reads then method == "GET" || method == "HEAD" else method == "POST"
      if fits then .endpoint e else .methodNotAllowed

def pageText (cs : List Char) : String :=
  String.join (cs.map fun c =>
    if c == '&' then "&amp;"
    else if c == '\'' then "&#39;"
    else if c == '<' then "&lt;"
    else if c == '>' then "&gt;"
    else if c == '"' then "&#34;"
    else c.toString)

end VoxelScout.Api
