import B3Chain.Stratum.Client
import B3Chain.Sv2.Messages

/-!
# Channels of the Stratum V2 mining server

A channel has a part of the eight extranonce bytes fixed by the pool; the miner
rolls the rest.  A standard channel has all of them fixed.
-/

namespace B3Chain.Sv2

open Words

/-- `SV2_EXTRANONCE_TOTAL`. -/
def sv2ExtranonceTotal : Nat := 8

/-- `ChannelKind`. -/
inductive ChannelKind
  | standard
  | extended
  deriving DecidableEq, Repr

/-- `ChannelState`; the fixed and the rolled bytes fill the extranonce. -/
structure ChannelState where
  id : Nat
  kind : ChannelKind
  requestId : Nat
  userIdentity : JsString
  extranoncePrefix : List Byte
  extranonceSize : Nat
  groupChannelId : Nat
  targetBE : List Byte
  shareDifficulty : ℚ
  lastAcceptedSequence : Nat
  lastJobId : Nat
  cleanJobs : Bool
  filled : extranoncePrefix.length + extranonceSize = sv2ExtranonceTotal

/-- `ChannelTable`. -/
structure ChannelTable where
  byId : List (Nat × ChannelState)
  nextId : Nat

/-- Random bytes, numbered by the calls that draw them. -/
structure Randomness where
  bytes : Nat → Nat → List Byte
  length_bytes : ∀ draw size, (bytes draw size).length = size

/-- `bigIntToBe32`. -/
def bigIntToBe32 (n : Nat) : List Byte :=
  (leBytes 32 n).reverse

/-- `targetU256BE`. -/
def targetU256BE (shareDifficulty : ℚ) : Except String (List Byte) :=
  (Stratum.targetFromShareDifficulty shareDifficulty).map bigIntToBe32

/-- The length of the bytes the pool fixes. -/
def prefixLenOf (kind : ChannelKind) (prefixLen : Nat) : Nat :=
  match kind with
  | .standard => sv2ExtranonceTotal
  | .extended => min prefixLen (sv2ExtranonceTotal - 1)

theorem prefixLenOf_le (kind : ChannelKind) (prefixLen : Nat) :
    prefixLenOf kind prefixLen ≤ sv2ExtranonceTotal := by
  cases kind with
  | standard => exact le_rfl
  | extended => exact (Nat.min_le_right _ _).trans (Nat.sub_le _ _)

/-- What a channel is opened with. -/
structure OpenOptions where
  kind : ChannelKind
  requestId : Nat
  userIdentity : JsString
  defaultDifficulty : ℚ
  prefixLen : Nat

namespace ChannelTable

/-- A connection without channels. -/
def empty : ChannelTable where
  byId := []
  nextId := 1

/-- A new channel. -/
def channelOf (randomness : Randomness) (draw id : Nat) (opts : OpenOptions)
    (targetBE : List Byte) : ChannelState where
  id := id
  kind := opts.kind
  requestId := opts.requestId
  userIdentity := opts.userIdentity
  extranoncePrefix :=
    randomness.bytes draw (prefixLenOf opts.kind opts.prefixLen)
  extranonceSize :=
    sv2ExtranonceTotal - prefixLenOf opts.kind opts.prefixLen
  groupChannelId := 0
  targetBE := targetBE
  shareDifficulty := opts.defaultDifficulty
  lastAcceptedSequence := 0
  lastJobId := 0
  cleanJobs := true
  filled := by
    rw [randomness.length_bytes]
    exact Nat.add_sub_cancel' (prefixLenOf_le _ _)

/-- `get`. -/
def get (table : ChannelTable) (id : Nat) : Option ChannelState :=
  table.byId.lookup id

/-- `delete`. -/
def delete (table : ChannelTable) (id : Nat) : ChannelTable :=
  { table with byId := table.byId.filter fun entry => entry.1 ≠ id }

/-- `all`. -/
def all (table : ChannelTable) : List ChannelState :=
  table.byId.map Prod.snd

/-- A change of one channel. -/
def update (table : ChannelTable) (id : Nat)
    (change : ChannelState → ChannelState) : ChannelTable :=
  { table with
    byId := table.byId.map fun entry =>
      if entry.1 = id then (entry.1, change entry.2) else entry }

end ChannelTable

/-- `fullExtranonce`. -/
def fullExtranonce (ch : ChannelState) (submitted : List Byte) :
    Except String (List Byte) :=
  if submitted.length ≠ ch.extranonceSize then
    .error ("extranonce length mismatch: channel expects " ++
      toString ch.extranonceSize ++ ", got " ++ toString submitted.length)
  else .ok (ch.extranoncePrefix ++ submitted)

end B3Chain.Sv2
