import VoxelScout.Clock

/-! # Settings of the inspection interface -/

namespace VoxelScout.Api

structure Config where
  port : String
  broadcastInterval : Duration
  deriving Repr, DecidableEq

def Config.standard : Config :=
  ⟨"8090", Duration.milliseconds 250⟩

end VoxelScout.Api
