import B3Chain.Sv2.TpPoller

/-!
# The height at the start of the coinbase

The node wants the script of a coinbase to start with `CScript() << height`,
which is a single opcode for the heights up to 16 and the minimal script number
from there on.  The pool and the template provider push the script number at
every height.
-/

namespace B3Chain.Sv2

open Words
open Stratum

/-! ## The node -/

/-- The bytes of the loop of `CScriptNum::serialize`, lowest first. -/
def absBytes : Nat → Nat → List Byte
  | 0, _ => []
  | rounds + 1, absvalue =>
    if absvalue = 0 then []
    else BitVec.ofNat 8 absvalue :: absBytes rounds (absvalue / 256)

/-- `CScriptNum::serialize`, with eight rounds for 64 bits. -/
def scriptNumSerialize (value : Int) : List Byte :=
  if value = 0 then []
  else signed (value < 0) (absBytes 8 (value.natAbs % 2 ^ 64))

/-- `AppendDataSize`. -/
def dataSize (size : Nat) : List Byte :=
  if size < 0x4c then leBytes 1 size
  else if size ≤ 0xff then 0x4c :: leBytes 1 size
  else if size ≤ 0xffff then 0x4d :: leBytes 2 size
  else 0x4e :: leBytes 4 size

/-- `CScript() << n`. -/
def scriptPush (n : Int) : List Byte :=
  if n = -1 ∨ 1 ≤ n ∧ n ≤ 16 then [BitVec.ofInt 8 (n + 0x50)]
  else if n = 0 then [0]
  else
    dataSize (scriptNumSerialize n).length ++ scriptNumSerialize n

/-- The rule of `ContextualCheckBlock`; a block that breaks it is rejected as
`bad-cb-height`. -/
def StartsWithHeight (scriptSig : List Byte) (nHeight : Int) : Prop :=
  ¬ (scriptSig.length < (scriptPush nHeight).length ∨
    scriptSig.take (scriptPush nHeight).length ≠ scriptPush nHeight)

theorem startsWithHeight_iff (scriptSig : List Byte) (nHeight : Int) :
    StartsWithHeight scriptSig nHeight ↔ scriptPush nHeight <+: scriptSig := by
  rw [StartsWithHeight, not_or, not_not, not_lt, List.prefix_iff_eq_take]
  constructor
  · exact fun both => both.2.symm
  · intro same
    refine ⟨?_, same.symm⟩
    rw [same, List.length_take]
    exact Nat.min_le_right _ _

/-! ## Script numbers -/

/-- The loop of the pool yields the bytes of the node's. -/
theorem heightBytes_eq {rounds others abs : Nat} (word : abs < 2 ^ 32)
    (enough : abs < 256 ^ rounds) (others_enough : abs < 256 ^ others) :
    heightBytes rounds abs = absBytes others abs := by
  induction rounds generalizing others abs with
  | zero =>
    rw [pow_zero, Nat.lt_one_iff] at enough
    subst enough
    cases others <;> rfl
  | succ rounds induction =>
    cases others with
    | zero =>
      rw [pow_zero, Nat.lt_one_iff] at others_enough
      subst others_enough
      rfl
    | succ others =>
      rw [heightBytes, absBytes]
      split_ifs with zero
      · rfl
      · rw [pow_succ'] at enough others_enough
        rw [Nat.mod_eq_of_lt word]
        refine congrArg (List.cons _) (induction ?_ ?_ ?_)
        · exact (Nat.div_le_self _ _).trans_lt word
        · exact Nat.div_lt_of_lt_mul enough
        · exact Nat.div_lt_of_lt_mul others_enough

theorem length_absBytes_le (rounds absvalue : Nat) :
    (absBytes rounds absvalue).length ≤ rounds := by
  induction rounds generalizing absvalue with
  | zero => exact le_rfl
  | succ rounds induction =>
    rw [absBytes]
    split_ifs
    · exact Nat.zero_le _
    · exact Nat.succ_le_succ (induction _)

theorem length_signed_le (negative : Bool) (bytes : List Byte) :
    (signed negative bytes).length ≤ bytes.length + 1 := by
  induction bytes with
  | nil => exact Nat.zero_le _
  | cons byte rest induction =>
    cases rest with
    | nil =>
      rw [signed]
      split_ifs <;> simp
    | cons next rest =>
      rw [signed, List.length_cons, List.length_cons]
      exact Nat.succ_le_succ induction

/-- The number a height is pushed as has a few bytes. -/
theorem length_scriptNumSerialize_le (value : Int) :
    (scriptNumSerialize value).length ≤ 9 := by
  rw [scriptNumSerialize]
  split_ifs
  · exact Nat.zero_le _
  · have digits := length_absBytes_le 8 (value.natAbs % 2 ^ 64)
    have sign := length_signed_le (value < 0)
      (absBytes 8 (value.natAbs % 2 ^ 64))
    omega

section Height

variable {h : Nat} (least : 1 ≤ h) (most : h ≤ 2 ^ 31 - 1)

include least most in
theorem scriptNumPush_eq :
    scriptNumPush h =
      leBytes 1 (scriptNumSerialize h).length ++ scriptNumSerialize h := by
  have digits : heightBytes 5 h = absBytes 8 h :=
    heightBytes_eq (by omega) (by omega) (by omega)
  have word : h % 2 ^ 64 = h := Nat.mod_eq_of_lt (by omega)
  rw [scriptNumPush, if_neg (by omega), scriptNumSerialize,
    if_neg (by omega), Int.natAbs_natCast, digits, word]
  rfl

include least in
theorem tpScriptNumPush_eq : tpScriptNumPush h = scriptNumPush h := by
  have positive : decide ((h : Int) < 0) = false :=
    decide_eq_false (by omega)
  rw [tpScriptNumPush, scriptNumPush, positive]

/-- A script that starts with the pushed number passes from height 17 on. -/
theorem startsWithHeight_push_iff (least : 1 ≤ h) (most : h ≤ 2 ^ 31 - 1)
    (rest : List Byte) :
    StartsWithHeight (scriptNumPush h ++ rest) h ↔ 17 ≤ h := by
  rw [startsWithHeight_iff, scriptPush, scriptNumPush_eq least most]
  have few := length_scriptNumSerialize_le h
  by_cases small : h ≤ 16
  · rw [if_pos (by omega)]
    refine iff_of_false ?_ (by omega)
    -- The opcode is past 0x50, the length of a number is not.
    rintro ⟨after, joined⟩
    have first := congrArg List.head? joined
    simp only [List.cons_append, leBytes, List.nil_append, List.head?_cons,
      Option.some_inj] at first
    have value := congrArg BitVec.toNat first
    rw [BitVec.toNat_ofInt, BitVec.toNat_ofNat] at value
    omega
  · rw [if_neg (by omega), if_neg (by omega), dataSize, if_pos (by omega)]
    refine iff_of_true ?_ (by omega)
    exact List.prefix_append _ _

end Height

/-! ## The coinbases -/

/-- The script of a coinbase starts behind the version, the count, the outpoint
and its own length of one byte. -/
def scriptStart (coinbase : List Byte) : List Byte :=
  coinbase.drop 42

theorem scriptStart_eq {size : Nat} (short : size ≤ 100)
    (heightPush rest : List Byte) :
    scriptStart (leBytes 4 1 ++ [1] ++
      (List.replicate 32 0 ++ List.replicate 4 0xff) ++ varInt size ++
        heightPush ++ rest) = heightPush ++ rest := by
  have one : varInt size = leBytes 1 size := if_pos (by omega)
  rw [one, scriptStart, List.append_assoc _ heightPush]
  exact List.drop_left' (by simp)

/--
For every height of the node's range, the coinbase of a job and the one of a
template of the template provider pass the height rule exactly from height 17
on, whatever is put behind their first halves.
-/
theorem coinbase_height_accepted_iff (h : Nat) (least : 1 ≤ h)
    (most : h ≤ 2 ^ 31 - 1) (tpl : Template) (height : tpl.height = h)
    (rest : List Byte) :
    (∀ payoutScript coinb1Hex coinb2Hex coinb1,
      buildCoinbase tpl payoutScript = .ok (coinb1Hex, coinb2Hex) →
      JsString.hexToBytes coinb1Hex = .ok coinb1 →
        (StartsWithHeight (scriptStart (coinb1 ++ rest)) h ↔ 17 ≤ h)) ∧
    ∀ hashes payoutScript bundle,
      buildBundle hashes payoutScript tpl = .ok bundle →
        (StartsWithHeight (scriptStart (bundle.coinbasePrefix ++ rest)) h ↔
          17 ≤ h) := by
  have accepted := startsWithHeight_push_iff least most rest
  refine ⟨fun payoutScript coinb1Hex coinb2Hex coinb1 built read => ?_,
    fun hashes payoutScript bundle built => ?_⟩
  · cases payoutScript with
    | none => cases built
    | some spk =>
      rw [buildCoinbase, height] at built
      dsimp only at built
      split_ifs at built with long
      obtain ⟨vouts, -, made⟩ := Machine.bind_eq_ok_iff.mp built
      cases made
      rw [JsString.hexToBytes_bytesToHex] at read
      cases read
      rw [scriptStart_eq (not_lt.mp long)]
      exact accepted
  · cases payoutScript with
    | none => cases built
    | some spk =>
      obtain ⟨vouts, -, afterOutputs⟩ := Machine.bind_eq_ok_iff.mp built
      obtain ⟨list, -, afterList⟩ := Machine.bind_eq_ok_iff.mp afterOutputs
      obtain ⟨path, -, made⟩ := Machine.bind_eq_ok_iff.mp afterList
      cases made
      have short : (tpScriptNumPush h).length + 8 + tpTagPush.length ≤
          100 := by
        have few := length_scriptNumSerialize_le h
        rw [tpScriptNumPush_eq least, scriptNumPush_eq least most,
          List.length_append, length_leBytes]
        have tag : tpTagPush.length = 19 := by decide
        omega
      dsimp only
      rw [height, coinbasePrefix, scriptStart_eq short,
        tpScriptNumPush_eq least]
      exact accepted

/-- A template without transactions. -/
def emptyTemplate (height : Int) : Template where
  version := 0x20000000
  previousblockhash := []
  transactions := []
  coinbasevalue := 5000000000
  target := []
  mintime := 0
  curtime := 0
  bits := JsString.ofString "207fffff"
  nBits := 0x207fffff
  height
  defaultWitnessCommitment := none
  bits_read := by decide +kernel

/-- At height 17 the coinbase passes. -/
theorem coinbase_accepted_at_17 :
    ∃ coinb1Hex coinb2Hex coinb1,
      buildCoinbase (emptyTemplate 17) (some [0x51]) =
        .ok (coinb1Hex, coinb2Hex) ∧
      JsString.hexToBytes coinb1Hex = .ok coinb1 ∧
      StartsWithHeight (scriptStart (coinb1 ++ [])) 17 := by
  have accepted := (coinbase_height_accepted_iff 17 (by decide) (by decide)
    (emptyTemplate 17) rfl []).1 (some [0x51])
  exact ⟨_, _, _, rfl, JsString.hexToBytes_bytesToHex _,
    (accepted _ _ _ rfl (JsString.hexToBytes_bytesToHex _)).mpr le_rfl⟩

/-- At height 1 the node wants the byte 0x51, and the pool pushes 0x01 0x01:
no continuation of the coinbase passes. -/
theorem coinbase_rejected_at_1 :
    ∃ coinb1Hex coinb2Hex coinb1,
      buildCoinbase (emptyTemplate 1) (some [0x51]) =
        .ok (coinb1Hex, coinb2Hex) ∧
      JsString.hexToBytes coinb1Hex = .ok coinb1 ∧
      ∀ rest, ¬ StartsWithHeight (scriptStart (coinb1 ++ rest)) 1 := by
  refine ⟨_, _, _, rfl, JsString.hexToBytes_bytesToHex _, fun rest => ?_⟩
  rw [scriptStart_eq (by decide)]
  have accepted := startsWithHeight_push_iff (h := 1) le_rfl (by decide) rest
  exact fun passes => absurd (accepted.mp passes) (by decide)

end B3Chain.Sv2
