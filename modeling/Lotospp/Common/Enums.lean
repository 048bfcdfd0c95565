import Lotospp.Text.Bytes

/-!
# Enumerations

The enumerations of `Common/Enums`, and the lookups of the enum template that
the session code uses.
-/

namespace Lotospp
namespace Common

open Text

/-- `enums::UserStage`. -/
inductive UserStage
  | disconnect
  | swapped
  | new
  | loginId
  | loginPwd
  | loginName
  | loginNewPwd
  | loginReenterPwd
  | loginPrompt
  | cmdLine
  | oldPwd
  | newPwd
  | reenterPwd
  | suicide
  deriving DecidableEq, Repr

namespace UserStage

/-- The stages in which `User::login` reads a name. -/
def readsName : UserStage → Bool
  | .new => true
  | .loginId => true
  | .loginName => true
  | _ => false

/-- The stages in which `User::uRead` echoes asterisks. -/
def hidesInput : UserStage → Bool
  | .loginPwd => true
  | .loginNewPwd => true
  | .loginReenterPwd => true
  | .oldPwd => true
  | .newPwd => true
  | .reenterPwd => true
  | .suicide => true
  | _ => false

end UserStage

/-- A value of the class `UserLevel`, which holds any integer. -/
structure UserLevel where
  /-- The integer. -/
  value : Int
  deriving DecidableEq, Repr

namespace UserLevel

/-- `enums::UserLevel_LOGIN`. -/
def login : UserLevel := ⟨0⟩

/-- `enums::UserLevel_NOVICE`. -/
def novice : UserLevel := ⟨1⟩

/-- The values in the table of the enumeration. -/
def table : List Int := [0, 1, 2, 3]

end UserLevel

/-- The template function `Enum::fromInteger`: an integer found in the table
is rejected with `enum_conversion_error`; for any other it answers what stands
behind the end of the table. -/
def fromInteger (table : List Int) (pastEnd : Int) (id : Int) : Option Int :=
  if id ∈ table then none else some pastEnd

/-- The commands of the login prompt. -/
def LoginCom.table : List (Int × Bytes) :=
  [(0, lit "quit"), (1, lit "who"), (2, lit "version")]

/-- `enums::LoginCom_QUIT`. -/
def LoginCom.quit : Int := 0

/-- `enums::LoginCom_WHO`. -/
def LoginCom.who : Int := 1

/-- `enums::LoginCom_VERSION`. -/
def LoginCom.version : Int := 2

/-- The value of the iterator with which the search of `User::login` for a
command ends: behind the end of the table when no command matches. -/
def LoginCom.search (pastEnd : Int) (inpstr : Bytes) : Int :=
  match LoginCom.table.find? fun entry => iequals entry.2 inpstr with
  | some entry => entry.1
  | none => pastEnd

/-- The bits of `enums::TelnetFlag` that the session code uses. -/
structure TelnetFlags where
  /-- `TelnetFlag_ECHO`. -/
  echo : Bool := false
  /-- `TelnetFlag_SGA`. -/
  sga : Bool := false
  /-- `TelnetFlag_TERMTYPE`. -/
  termtype : Bool := false
  /-- `TelnetFlag_TERMSIZE`. -/
  termsize : Bool := false
  /-- `TelnetFlag_GOT_TELOPT_INFO`. -/
  gotTeloptInfo : Bool := false
  /-- `TelnetFlag_ANSI_TERM`. -/
  ansiTerm : Bool := false
  deriving DecidableEq, Repr

/-! ## Bytes of the telnet protocol -/

/-- `enums::TELCMD_SE`. -/
def telcmdSE : UInt8 := 240
/-- `enums::TELCMD_AYT`. -/
def telcmdAYT : UInt8 := 246
/-- `enums::TELCMD_SB`. -/
def telcmdSB : UInt8 := 250
/-- `enums::TELCMD_WILL`. -/
def telcmdWILL : UInt8 := 251
/-- `enums::TELCMD_WONT`. -/
def telcmdWONT : UInt8 := 252
/-- `enums::TELCMD_DO`. -/
def telcmdDO : UInt8 := 253
/-- `enums::TELCMD_DONT`. -/
def telcmdDONT : UInt8 := 254
/-- `enums::TELCMD_IAC`. -/
def telcmdIAC : UInt8 := 255

/-- `enums::TELOPT_ECHO`. -/
def teloptECHO : UInt8 := 1
/-- `enums::TELOPT_SGA`. -/
def teloptSGA : UInt8 := 3
/-- `enums::TELOPT_TERM`. -/
def teloptTERM : UInt8 := 24
/-- `enums::TELOPT_NAWS`. -/
def teloptNAWS : UInt8 := 31

/-- `enums::TELSUB_IS`. -/
def telsubIS : UInt8 := 0
/-- `enums::TELSUB_SEND`. -/
def telsubSEND : UInt8 := 1

/-- Carriage return. -/
def cr : UInt8 := 13
/-- Line feed. -/
def lf : UInt8 := 10
/-- `enums::ASCII_BS`. -/
def asciiBS : UInt8 := 8
/-- `enums::ASCII_DEL`. -/
def asciiDEL : UInt8 := 127

/-! ## Limits -/

/-- `MIN_USERNAME_LEN`. -/
def minUsernameLen : Nat := 3
/-- `MAX_USERNAME_LEN`. -/
def maxUsernameLen : Nat := 12
/-- `MIN_PASSWORD_LEN`. -/
def minPasswordLen : Nat := 6
/-- `MAX_LOGIN_ATTEMPTS`. -/
def maxLoginAttempts : Nat := 3

end Common
end Lotospp
