import VoxelScout.Clock

/-! # Settings of the connection to the game -/

namespace VoxelScout.Bridge

/-- Where the game's sidecar is dialled (nowhere, when the address is empty: then the
bridge waits to be called), how long a greeting may take, and how long to wait before
dialling again. -/
structure Config where
  url : String
  handshakeTimeout : Duration
  reconnectDelay : Duration
  deriving Repr, DecidableEq

namespace Config

def standard : Config :=
  ⟨"", Duration.seconds 10, Duration.seconds 2⟩

/-- Durations that are not positive take their standard values. -/
def withDefaults (c : Config) : Config :=
  { c with
    handshakeTimeout :=
      if c.handshakeTimeout ≤ 0 then standard.handshakeTimeout else c.handshakeTimeout
    reconnectDelay := if c.reconnectDelay ≤ 0 then standard.reconnectDelay else c.reconnectDelay }

end Config

end VoxelScout.Bridge
