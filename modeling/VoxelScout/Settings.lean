import VoxelScout.Api.Config
import VoxelScout.Bridge.Config
import VoxelScout.Clock.DurationText
import VoxelScout.Combat.Tracker
import VoxelScout.Hearing.Tracker
import VoxelScout.Sight.Tracker
import VoxelScout.Yaml.Resolve

/-! # Settings

Settings come in layers: the built-in ones, then a file that names only what it
changes, then the environment.
-/

namespace VoxelScout

structure Settings where
  sight : Sight.Config Float
  hearing : Hearing.Config Float
  /-- Seeds the blur of sounds; zero leaves it to chance. -/
  seed : UInt64
  combat : Combat.Config Float
  bridge : Bridge.Config
  /-- Whether the inspection interface is served. -/
  served : Bool
  api : Api.Config
  /-- Where the trace is written; nowhere, when empty. -/
  tracePath : String
  logLevel : String

namespace Settings

def standard : Settings where
  sight := Sight.Config.standard
  hearing := Hearing.Config.standard
  seed := 0
  combat := Combat.Config.standard
  bridge := Bridge.Config.standard
  served := true
  api := Api.Config.standard
  tracePath := ""
  logLevel := "info"

/-! ## From a file -/

open Yaml

def overDuration : Overlay Duration :=
  overScalar fun _ m =>
    match m with
    | .text s => Duration.ofText? s
    | _ => none

/-- A part of the settings, read over what it is. -/
def part {α : Type} (read : Overlay α) (get : Settings → α) (set : Settings → α → Settings) :
    Option (Overlay Settings) :=
  some fun s v => (read (get s) v).map (set s)

def overSight : Overlay Settings :=
  overRecord fun
    | "view_distance" =>
      part overFloat (·.sight.viewDistance) fun s x => { s with sight.viewDistance := x }
    | "fov_degrees" =>
      part overFloat (·.sight.fieldOfView) fun s x => { s with sight.fieldOfView := x }
    | _ => none

def overHearing : Overlay Settings :=
  overRecord fun
    | "max_sound_age" =>
      part overDuration (·.hearing.maxAge) fun s d => { s with hearing.maxAge := d }
    | "fuzzy_angle" =>
      part overFloat (·.hearing.blurAngle) fun s x => { s with hearing.blurAngle := x }
    | "prune_interval" =>
      part overDuration (·.hearing.pruneInterval) fun s d =>
        { s with hearing.pruneInterval := d }
    | "seed" => part overWord (·.seed) fun s n => { s with seed := n }
    | _ => none

def overCombat : Overlay Settings :=
  overRecord fun
    | "max_reach" => part overFloat (·.combat.maxReach) fun s x => { s with combat.maxReach := x }
    | "crit_charge" =>
      part overFloat (·.combat.critCharge) fun s x => { s with combat.critCharge := x }
    | _ => none

def overBridge : Overlay Settings :=
  overRecord fun
    | "url" => part overText (·.bridge.url) fun s t => { s with bridge.url := t }
    | "handshake_timeout" =>
      part overDuration (·.bridge.handshakeTimeout) fun s d =>
        { s with bridge.handshakeTimeout := d }
    | "reconnect_delay" =>
      part overDuration (·.bridge.reconnectDelay) fun s d =>
        { s with bridge.reconnectDelay := d }
    | _ => none

def overApi : Overlay Settings :=
  overRecord fun
    | "enabled" => part overBool (·.served) fun s b => { s with served := b }
    | "port" => part overText (·.api.port) fun s t => { s with api.port := t }
    | "broadcast_interval" =>
      part overDuration (·.api.broadcastInterval) fun s d =>
        { s with api.broadcastInterval := d }
    | _ => none

def overTrace : Overlay Settings :=
  overRecord fun
    | "path" => part overText (·.tracePath) fun s t => { s with tracePath := t }
    | _ => none

def overLog : Overlay Settings :=
  overRecord fun
    | "level" => part overText (·.logLevel) fun s t => { s with logLevel := t }
    | _ => none

def overAll : Overlay Settings :=
  overRecord fun
    | "sensory" => some overSight
    | "sound" => some overHearing
    | "combat" => some overCombat
    | "bridge" => some overBridge
    | "web" => some overApi
    | "trace" => some overTrace
    | "log" => some overLog
    | _ => none

/-! ## From the environment -/

/-- A variable that is set and not empty replaces a setting. -/
def variableOr (env : String → Option String) (name fallback : String) : String :=
  match env name with
  | none => fallback
  | some value => if value.isEmpty then fallback else value

def withEnvironment (env : String → Option String) (s : Settings) : Settings :=
  { s with
    bridge.url := variableOr env "BOTFORGE_BRIDGE_URL" s.bridge.url
    api.port := variableOr env "BOTFORGE_WEB_PORT" s.api.port
    logLevel := variableOr env "BOTFORGE_LOG_LEVEL" s.logLevel }

/-! ## All layers -/

inductive File where
  | unnamed
  /-- It cannot be read. -/
  | unreadable
  | text (content : String)

inductive LoadError where
  | reading
  | parsing
  deriving DecidableEq, Repr

def LoadError.message : LoadError → String
  | .reading => "reading config file"
  | .parsing => "parsing config file"

def load (file : File) (env : String → Option String) : Except LoadError Settings :=
  match file with
  | .unnamed => .ok (standard.withEnvironment env)
  | .unreadable => .error .reading
  | .text content =>
    match (Yaml.read? content).bind (overAll standard) with
    | some s => .ok (s.withEnvironment env)
    | none => .error .parsing

end Settings

end VoxelScout
