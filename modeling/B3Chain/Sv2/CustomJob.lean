import B3Chain.Sv2.MiningServer

/-!
# Declared coinbases

A declared job has the coinbase in two halves around the extranonce.  Only the
second half is looked at: it is read as the end of a transaction, from the
sequence of the only input on, and the outputs that pay the pool are summed up.
-/

namespace B3Chain.Sv2

open Words Framing

/-- `Number.MAX_SAFE_INTEGER`. -/
def maxSafeInteger : Nat := 2 ^ 53 - 1

/-- `readVarInt`. -/
def readVarInt : Reader Nat := do
  let first ← ReadBuf.u8
  if first < 0xfd then return first
  else if first = 0xfd then ReadBuf.u16
  else if first = 0xfe then ReadBuf.u32
  else
    let big ← ReadBuf.u64
    if maxSafeInteger < big then
      throw (.refused "varInt larger than MAX_SAFE_INTEGER")
    else return big

/-- An output of a transaction. -/
structure TxOut where
  value : Nat
  script : List Byte
  deriving DecidableEq

/-- One output of the declared coinbase. -/
def readOutput : Reader TxOut := do
  let value ← ReadBuf.u64
  let spkLen ← readVarInt
  let script ← ReadBuf.bytesRaw spkLen
  return { value, script }

/-- The outputs after the sequence; what follows them is not read. -/
def readOutputs : Reader (List TxOut) := do
  let _ ← ReadBuf.bytesRaw 4
  let outCount ← readVarInt
  Reader.times readOutput outCount

/-- What a list of outputs pays to a script. -/
def paidTo (script : List Byte) (outputs : List TxOut) : Nat :=
  ((outputs.filter fun output => output.script = script).map
    TxOut.value).sum

/-- `validateDeclaredCoinbase`: what the pool is paid, or the reason. -/
def validateDeclaredCoinbase (payoutScript : Option (List Byte))
    (coinbaseSuffix : List Byte) (minValue : Nat) : Except String Nat :=
  match payoutScript with
  | none => .error "pool-payout-address-invalid"
  | some expectedSpk =>
    match decodePayload readOutputs coinbaseSuffix with
    | .error message => .error ("coinbase-parse-error: " ++ message)
    | .ok outputs =>
      if paidTo expectedSpk outputs < minValue then
        .error "coinbase-does-not-pay-pool"
      else .ok (paidTo expectedSpk outputs)

end B3Chain.Sv2
