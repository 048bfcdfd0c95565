import Lotospp.Common.Output

/-!
# Password hashes

`Blowfish::crypt` hashes a password with a fresh salt, or with the setting at
the front of a stored hash.  The setting is a C string: reading behind its
terminating NUL is told from reading its characters.  The Eksblowfish rounds
are a function of the key, the flags, the cost and the salt.
-/

namespace Lotospp
namespace Security

open Text Common

/-- What goes wrong when the setting is read. -/
inductive CryptFault
  /-- The setting is read behind its terminating NUL. -/
  | behindNul
  /-- The table `BF_atoi64` is read outside its bounds. -/
  | outsideTable
  deriving DecidableEq, Repr

/-- The Eksblowfish rounds, and the part of the self-test that looks at
`BF_set_key`. -/
structure Eksblowfish where
  /-- The 24 bytes for a key, the flags, the cost and the salt. -/
  run : (key : Bytes) → (flags cost : Nat) → (salt : Bytes) → Bytes
  /-- There are 24 of them. -/
  length_run : ∀ key flags cost salt, (run key flags cost salt).length = 24
  /-- `BF_set_key` gives the expected keys. -/
  setsKeys : Bool

/-! ## The alphabet -/

/-- `BF_itoa64`. -/
def alphabet : Bytes :=
  lit "./ABCDEFGHIJKLMNOPQRSTUVWXYZabcdefghijklmnopqrstuvwxyz0123456789"

/-- `BF_itoa64[index]`. -/
def itoa64 (index : UInt8) : UInt8 :=
  alphabet.getD index.toNat 0

/-- `BF_atoi64`. -/
def atoi64 : List UInt8 :=
  [64, 64, 64, 64, 64, 64, 64, 64, 64, 64, 64, 64, 64, 64, 0, 1,
    54, 55, 56, 57, 58, 59, 60, 61, 62, 63, 64, 64, 64, 64, 64, 64,
    64, 2, 3, 4, 5, 6, 7, 8, 9, 10, 11, 12, 13, 14, 15, 16,
    17, 18, 19, 20, 21, 22, 23, 24, 25, 26, 27, 64, 64, 64, 64, 64,
    64, 28, 29, 30, 31, 32, 33, 34, 35, 36, 37, 38, 39, 40, 41, 42,
    43, 44, 45, 46, 47, 48, 49, 50, 51, 52, 53, 64, 64, 64, 64, 64]

/-- `BF_atoi64[character-0x20]` for a signed character. -/
def tableAt (character : UInt8) : Except CryptFault UInt8 :=
  if 0x20 ≤ character ∧ character < 0x80 then
    .ok (atoi64.getD (character - 0x20).toNat 64)
  else .error .outsideTable

/-- What `BF_safe_atoi64` makes of a character. -/
inductive Sextet
  /-- Six bits. -/
  | value (bits : UInt8)
  /-- A dollar sign, which leaves the loop. -/
  | dollar
  /-- Another character, for which `BF_decode` fails. -/
  | invalid
  deriving DecidableEq, Repr

/-- The dollar sign. -/
def dollar : UInt8 := 36

/-- `BF_safe_atoi64`. -/
def safeAtoi64 (character : UInt8) : Sextet :=
  if character = dollar then .dollar
  else if character - 0x20 ≥ 0x60 then .invalid
  else
    let bits := atoi64.getD (character - 0x20).toNat 64
    if bits > 63 then .invalid else .value bits

/-! ## Decoding and encoding -/

/-- `setting[position]`. -/
def readAt (setting : Bytes) (position : Nat) : Except CryptFault UInt8 :=
  if position ≤ setting.length then .ok (setting.getD position 0)
  else .error .behindNul

/-- Read six bits at `sptr`, while `left` bytes are still to be written; they
are zero behind a dollar sign. -/
def readSextet
    (setting : Bytes)
    (left sptr : Nat)
    (next : UInt8 → Except CryptFault (Option Bytes)) :
    Except CryptFault (Option Bytes) := do
  match safeAtoi64 (← readAt setting sptr) with
  | .value bits => next bits
  | .dollar => pure (some (List.replicate left 0))
  | .invalid => pure none

/-- Write a byte. -/
def emitByte
    (byte : UInt8)
    (rest : Except CryptFault (Option Bytes)) :
    Except CryptFault (Option Bytes) := do
  pure ((← rest).map (byte :: ·))

/-- `BF_decode` of the characters from `sptr` on to `left` bytes. -/
def bfDecode (setting : Bytes) :
    (left sptr : Nat) → Except CryptFault (Option Bytes)
  | 0, _ => pure (some [])
  | 1, sptr =>
      readSextet setting 1 sptr fun c1 =>
        readSextet setting 1 (sptr + 1) fun c2 =>
          emitByte ((c1 <<< 2) ||| ((c2 &&& 0x30) >>> 4)) (pure (some []))
  | 2, sptr =>
      readSextet setting 2 sptr fun c1 =>
        readSextet setting 2 (sptr + 1) fun c2 =>
          emitByte ((c1 <<< 2) ||| ((c2 &&& 0x30) >>> 4))
            (readSextet setting 1 (sptr + 2) fun c3 =>
              emitByte (((c2 &&& 0x0F) <<< 4) ||| ((c3 &&& 0x3C) >>> 2))
                (pure (some [])))
  | left + 3, sptr =>
      readSextet setting (left + 3) sptr fun c1 =>
        readSextet setting (left + 3) (sptr + 1) fun c2 =>
          emitByte ((c1 <<< 2) ||| ((c2 &&& 0x30) >>> 4))
            (readSextet setting (left + 2) (sptr + 2) fun c3 =>
              emitByte (((c2 &&& 0x0F) <<< 4) ||| ((c3 &&& 0x3C) >>> 2))
                (readSextet setting (left + 1) (sptr + 3) fun c4 =>
                  emitByte (((c3 &&& 0x03) <<< 6) ||| c4)
                    (bfDecode setting left (sptr + 4))))

/-- `BF_encode`. -/
def bfEncode : Bytes → Bytes
  | [] => []
  | [first] => [itoa64 (first >>> 2), itoa64 ((first &&& 0x03) <<< 4)]
  | [first, second] =>
      [itoa64 (first >>> 2),
        itoa64 (((first &&& 0x03) <<< 4) ||| (second >>> 4)),
        itoa64 ((second &&& 0x0F) <<< 2)]
  | first :: second :: third :: rest =>
      itoa64 (first >>> 2) ::
        itoa64 (((first &&& 0x03) <<< 4) ||| (second >>> 4)) ::
        itoa64 (((second &&& 0x0F) <<< 2) ||| (third >>> 6)) ::
        itoa64 (third &&& 0x3F) :: bfEncode rest

/-! ## Hashing -/

/-- `flags_by_subtype`. -/
def flagsBySubtype : List Nat :=
  [2, 4, 0, 0, 0, 0, 0, 0, 0, 0, 0, 0, 0,
    0, 0, 0, 0, 0, 0, 0, 0, 0, 0, 1, 4, 0]

/-- The flags for a letter, and zero for any other character. -/
def flagsOf (subtype : UInt8) : Nat :=
  if isLower subtype then flagsBySubtype.getD (subtype - 97).toNat 0 else 0

/-- Go on if the character at a position passes a test. -/
def check
    {α : Type}
    (setting : Bytes)
    (position : Nat)
    (passes : UInt8 → Bool)
    (next : UInt8 → Except CryptFault (Option α)) :
    Except CryptFault (Option α) := do
  let character ← readAt setting position
  if passes character then next character else pure none

/-- The cost that two digits give. -/
def costOf (tens ones : UInt8) : Nat :=
  (tens.toNat - 48) * 10 + (ones.toNat - 48)

/-- The test of the seven characters at the front of a setting: the flags and
the cost. -/
def readHeader (setting : Bytes) : Except CryptFault (Option (Nat × Nat)) :=
  check setting 0 (· = dollar) fun _ =>
    check setting 1 (· = 50) fun _ =>
      check setting 2 (flagsOf · ≠ 0) fun subtype =>
        check setting 3 (· = dollar) fun _ =>
          check setting 4 (fun tens => 48 ≤ tens && tens ≤ 51) fun tens =>
            check setting 5
                (fun ones => 48 ≤ ones && ones ≤ 57 &&
                  !(tens = 51 && ones > 49)) fun ones =>
              check setting 6 (· = dollar) fun _ =>
                pure (some (flagsOf subtype, costOf tens ones))

/-- `memcpy(output, setting, count)`. -/
def copySetting (setting : Bytes) (count : Nat) : Except CryptFault Bytes :=
  if count ≤ setting.length + 1 then .ok ((setting ++ [0]).take count)
  else .error .behindNul

/-- `BF_crypt`: the string in `output`, unless it returns `NULL`. -/
def bfCrypt
    (rounds : Eksblowfish)
    (key setting : Bytes)
    (size min : Nat) : Except CryptFault (Option Bytes) := do
  if size < 7 + 22 + 31 + 1 then pure none
  else
    match ← readHeader setting with
    | none => pure none
    | some (flags, cost) =>
        if 2 ^ cost < min then pure none
        else
          match ← bfDecode setting 16 7 with
          | none => pure none
          | some salt => do
              let front ← copySetting setting (7 + 22 - 1)
              let last ← tableAt (← readAt setting (7 + 22 - 1))
              pure (some (front ++ [itoa64 (last &&& 0x30)] ++
                bfEncode ((rounds.run key flags cost salt).take 23)))

/-- `_crypt_output_magic`: what is in `output` then. -/
def cryptOutputMagic (setting output : Bytes) (size : Nat) :
    Except CryptFault Bytes := do
  if size < 3 then pure output
  else if (← readAt setting 0) = 42 then
    if (← readAt setting 1) = 48 then pure (lit "*1") else pure (lit "*0")
  else pure (lit "*0")

/-- `test_key`. -/
def testKey : Bytes :=
  [56, 98, 32, 0xD0, 0xC1, 0xD2, 0xCF, 0xCC, 0xD8]

/-- `test_setting` with this letter. -/
def testSetting (subtype : UInt8) : Bytes :=
  [dollar, 50, subtype] ++ lit "$00$abcdefghijklmnopqrstuu"

/-- `test_hashes`. -/
def testHash (flags : Nat) : Bytes :=
  if flags % 2 = 0 then lit "i1D709vfamulimlGcq0qq3UvuUasvEa"
  else lit "VUrPmXD6q/nVSSp7pNDhCR9071IfIRe"

/-- The self-test of `crypt_blowfish_rn` with this letter. -/
def selfTest (rounds : Eksblowfish) (subtype : UInt8) : Bool :=
  bfCrypt rounds testKey (testSetting subtype) 61 1 =
      .ok (some (testSetting subtype ++ testHash (flagsOf subtype))) ∧
    rounds.setsKeys

/-- `crypt_blowfish_rn`: the string in `output`. -/
def cryptBlowfishRn
    (rounds : Eksblowfish)
    (key setting output : Bytes)
    (size : Nat) : Except CryptFault Bytes := do
  let output ← cryptOutputMagic setting output size
  match ← bfCrypt rounds key setting size 16 with
  | none =>
      if selfTest rounds 97 then pure output
      else cryptOutputMagic setting output size
  | some hash =>
      if selfTest rounds (← readAt setting 2) then pure hash
      else cryptOutputMagic setting hash size

/-- The characters of a fresh salt. -/
def saltCharacters : Bytes :=
  lit "abcdefghijklmnopqrstuvwxyzABCDEFGHIJKLMNOPQRSTUVWXYZ1234567890./"

/-- A fresh salt. -/
def freshSalt (draws : Fin 22 → Fin 64) : Bytes :=
  List.ofFn fun index => saltCharacters.getD (draws index) 0

/-- `Blowfish::crypt`; the salt is drawn when there is no setting. -/
def crypt
    (rounds : Eksblowfish)
    (draws : Fin 22 → Fin 64)
    (password algo : Bytes) : Except CryptFault Bytes := do
  let setting :=
    if algo = [] then lit "$2y$10$" ++ freshSalt draws else algo
  pure (cStr (← cryptBlowfishRn rounds (cStr password) (cStr setting) [] 61))

end Security
end Lotospp
