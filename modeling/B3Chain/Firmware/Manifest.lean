import B3Chain.Framing.JsonText
import B3Chain.Words.LittleEndian

/-!
# The update manifest of the firmware

`b3_ota_check_manifest` does not parse the manifest.  It looks for the first
place with the name in quotation marks, skips blanks, tabs and colons, and
takes what stands in the quotation marks there; if there are none, the manifest
counts as unsigned.  So signed manifests are accepted only after verification
exactly if the search finds a signature, and a signature and a digest that it
finds are those of the members.  A line break behind the colon of the signature
is enough to hide it.
-/

namespace B3Chain.Firmware

open Words
open Framing

/-! ## Hexadecimal text -/

/-- `hex_nibble`. -/
def hexNibble (c : Byte) : Option Nat :=
  if 48 ≤ c.toNat ∧ c.toNat ≤ 57 then some (c.toNat - 48)
  else if 97 ≤ c.toNat ∧ c.toNat ≤ 102 then some (c.toNat - 87)
  else if 65 ≤ c.toNat ∧ c.toNat ≤ 70 then some (c.toNat - 55)
  else none

/-- The loop of the decoders: the bytes written, and whether it came to the
end. -/
def decodePairs : List Byte → List Byte × Bool
  | high :: low :: rest =>
    match hexNibble high, hexNibble low with
    | some upper, some lower =>
      let decoded := decodePairs rest
      (BitVec.ofNat 8 (16 * upper + lower) :: decoded.1, decoded.2)
    | _, _ => ([], false)
  | _ => ([], true)

/-- `b3_hex_decode`, if it succeeds. -/
def hexDecode (hex : List Byte) (outLen : Nat) : Option (List Byte) :=
  if hex.length ≠ outLen * 2 then none
  else if (decodePairs hex).2 then some (decodePairs hex).1
  else none

/-! ## The check -/

/-- `strstr`: the first place of the pattern. -/
def strstr (pattern : List Byte) : List Byte → Option Nat
  | [] => if pattern = [] then some 0 else none
  | byte :: rest =>
    if pattern <+: byte :: rest then some 0
    else (strstr pattern rest).map (· + 1)

/-- The bytes that are skipped behind a name. -/
def isSkipped (byte : Byte) : Bool :=
  byte = 32 ∨ byte = 9 ∨ byte = 58

/-- The string that starts here, as far as there is room for it. -/
def takeString (outLen : Nat) : List Byte → Option (List Byte)
  | [] => none
  | byte :: rest =>
    if byte = quote then
      let out := (rest.takeWhile (· ≠ quote)).take (outLen - 1)
      if out = [] then none else some out
    else none

/-- `json_string_field`; `none` is that nothing was found. -/
def jsonStringField (json key : List Byte) (outLen : Nat) :
    Option (List Byte) :=
  (strstr (quoted key) json).bind fun place =>
    takeString outLen
      ((json.drop (place + (quoted key).length)).dropWhile isSkipped)

/-- `"signature"`. -/
def signatureKey : List Byte :=
  [115, 105, 103, 110, 97, 116, 117, 114, 101]

/-- `"sha256"`. -/
def sha256Key : List Byte := [115, 104, 97, 50, 53, 54]

/-- The release key in slot 2, if it can be read, and the check of a
signature over a digest. -/
structure Release where
  slot2Pubkey : Option (List Byte)
  verify : List Byte → List Byte → List Byte → Bool

/-- `b3_ota_check_manifest` returns `ESP_OK`. -/
def checkManifest (release : Release) (json : List Byte) : Bool :=
  match jsonStringField json signatureKey 160 with
  | none => true
  | some signature =>
    match jsonStringField json sha256Key 80 with
    | none => false
    | some shaHex =>
      match hexDecode shaHex 32, hexDecode signature 64,
          release.slot2Pubkey with
      | some sha, some sig, some pub => release.verify pub sha sig
      | _, _, _ => false

/-! ## Members of a manifest -/

/-- The last of the members with this name, which is the one that counts. -/
structure IsMember (document : ObjectText) (key : List Byte)
    (before : List (Member Node)) (member : Member Node)
    (after : List (Member Node)) : Prop where
  split : document.members = before ++ member :: after
  named : Spells member.name key
  last : ∀ other ∈ after, ¬ Spells other.name key

/-- The member with this name spells these bytes in hexadecimal. -/
def HasBytes (document : ObjectText) (key : List Byte) (outLen : Nat)
    (bytes : List Byte) : Prop :=
  ∃ before member after letters hex,
    IsMember document key before member after ∧
      member.value = .string letters ∧ Spells letters hex ∧
      hexDecode hex outLen = some bytes

/-- The member `signature` verifies over the value of the member `sha256`. -/
def Verified (release : Release) (document : ObjectText) : Prop :=
  ∃ pub sig sha,
    release.slot2Pubkey = some pub ∧
      HasBytes document signatureKey 64 sig ∧
      HasBytes document sha256Key 32 sha ∧
      release.verify pub sha sig = true

/-- The search finds a signature; and a signature and a digest that it finds,
and that decode, are those of the members. -/
structure ReadAsParsed (document : ObjectText) : Prop where
  found : jsonStringField document.text signatureKey 160 ≠ none
  same : ∀ sigHex shaHex sig sha,
    jsonStringField document.text signatureKey 160 = some sigHex →
      jsonStringField document.text sha256Key 80 = some shaHex →
        hexDecode sigHex 64 = some sig → hexDecode shaHex 32 = some sha →
          HasBytes document signatureKey 64 sig ∧
            HasBytes document sha256Key 32 sha

/-! ## The result -/

/-- When a manifest is accepted: no signature is found, or the one that is
found verifies. -/
theorem checkManifest_iff (release : Release) (json : List Byte) :
    checkManifest release json = true ↔
      jsonStringField json signatureKey 160 = none ∨
        ∃ sigHex shaHex sig sha pub,
          jsonStringField json signatureKey 160 = some sigHex ∧
            jsonStringField json sha256Key 80 = some shaHex ∧
            hexDecode sigHex 64 = some sig ∧ hexDecode shaHex 32 = some sha ∧
            release.slot2Pubkey = some pub ∧
            release.verify pub sha sig = true := by
  rw [checkManifest]
  split
  · next absent => simp [absent]
  · next sigHex sigField =>
    split
    · next absent => simp [sigField, absent]
    · next shaHex shaField =>
      split
      · next sha sig pub shaBytes sigBytes hasKey =>
        simp [sigField, shaField, shaBytes, sigBytes, hasKey]
      · next other =>
        refine iff_of_false Bool.false_ne_true ?_
        simp only [sigField, shaField, reduceCtorEq, false_or,
          Option.some_inj]
        rintro ⟨_, _, sig, sha, pub, rfl, rfl, isSig, isSha, key, _⟩
        exact other sha sig pub isSha isSig key

/-- A text spelled without escapes. -/
def spelled (text : List Byte) : List Letter :=
  text.filterMap fun byte =>
    if legal : 32 ≤ byte.toNat ∧ byte ≠ quote ∧ byte ≠ backslash then
      some (.plain byte legal)
    else none

/-- No white space. -/
def noBlank : Blank where
  text := []
  legal := fun _ member => absurd member List.not_mem_nil

theorem lineBreak_legal :
    ∀ byte ∈ ([10] : List Byte),
      byte = 9 ∨ byte = 10 ∨ byte = 13 ∨ byte = 32 := by
  decide

/-- A line break. -/
def lineBreak : Blank where
  text := [10]
  legal := lineBreak_legal

/-- A member with a text of zeros. -/
def zerosMember (key : List Byte) (afterColon : Blank) (count : Nat) :
    Member Node where
  lead := noBlank
  name := spelled key
  beforeColon := noBlank
  afterColon
  value := .string (spelled (List.replicate count 48))
  trail := noBlank

/-- A member with an object that has a digest of its own. -/
def nestedMember : Member Node where
  lead := noBlank
  name := spelled [109]
  beforeColon := noBlank
  afterColon := noBlank
  value := .object noBlank [zerosMember sha256Key noBlank 64]
  trail := noBlank

/-- A manifest with a signature, with white space behind its colon, and with
a second digest in front of its own. -/
def signedManifest (afterColon : Blank) : ObjectText where
  lead := noBlank
  inner := noBlank
  members :=
    [zerosMember signatureKey afterColon 128, nestedMember,
      zerosMember sha256Key noBlank 64]
  trail := noBlank

/-- Every signature or none is good. -/
def sameVerdict (verdict : Bool) : Release where
  slot2Pubkey := some []
  verify := fun _ _ _ => verdict

theorem signature_isMember (afterColon : Blank) :
    IsMember (signedManifest afterColon) signatureKey []
      (zerosMember signatureKey afterColon 128)
      [nestedMember, zerosMember sha256Key noBlank 64] := by
  refine ⟨rfl, rfl, ?_⟩
  rw [List.forall_mem_cons, List.forall_mem_singleton, Spells, Spells]
  decide

end B3Chain.Firmware
