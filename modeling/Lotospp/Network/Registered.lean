import Lotospp.Network.Provenance
import Lotospp.Security.SelfTest

/-!
# Registered passwords in a run

With the hashes of `Blowfish::crypt`, an account that has been registered can
be entered again with the password that was chosen for it.  The login does not
notice what follows the first 72 characters of a password.
-/

namespace Lotospp
namespace Network

open Text Effect Common Commands Database Security

/-- An environment whose hashes are those of `Blowfish::crypt` on a machine with
this order of bytes.  The salts of new hashes are given by their count; what is
returned when a stored text is read behind its end depends on the text. -/
def hashedBy
    (order : ByteOrder)
    (salts : Nat → Fin 22 → Fin 64)
    (later : Fin 22 → Fin 64)
    (unread : Bytes → Bytes)
    (env : Env) : Env :=
  { env with
    crypt := fun password setting =>
      (crypt (eksblowfish order) later password setting).toOption.getD
        (unread setting)
    cryptFresh := fun count password =>
      (crypt (eksblowfish order) (salts count) password []).toOption.getD [] }

section Hashes

variable (order : ByteOrder) (salts : Nat → Fin 22 → Fin 64)
variable (later : Fin 22 → Fin 64) (unread : Bytes → Bytes) (env : Env)

theorem cryptFresh_hashedBy (count : Nat) (password : Bytes) :
    (hashedBy order salts later unread env).cryptFresh count password =
      storedHash (eksblowfish order) (salts count) password := by
  rw [hashedBy]
  simp only [crypt_registered]
  rfl

theorem crypt_hashedBy
    {password other : Bytes}
    (agree : (cStr password).take 72 = (cStr other).take 72) :
    (hashedBy order salts later unread env).crypt password =
      (hashedBy order salts later unread env).crypt other := by
  funext setting
  rw [hashedBy]
  simp only [crypt_of_take order order later setting agree]

theorem cryptFresh_congr
    {password other : Bytes}
    (agree : (cStr password).take 72 = (cStr other).take 72)
    (count : Nat) :
    (hashedBy order salts later unread env).cryptFresh count password =
      (hashedBy order salts later unread env).cryptFresh count other := by
  rw [hashedBy]
  simp only [crypt_of_take order order (salts count) [] agree]

/-- A hash that has been made for an account verifies its password. -/
theorem crypt_cryptFresh
    {password other : Bytes}
    (agree : (cStr password).take 72 = (cStr other).take 72)
    (count : Nat) :
    let env := hashedBy order salts later unread env
    env.crypt other (env.cryptFresh count password) =
      env.cryptFresh count password := by
  intro env'
  rw [cryptFresh_hashedBy]
  change (crypt (eksblowfish order) later other _).toOption.getD _ = _
  rw [storedHash_verifies order order (salts count) later agree]
  rfl

/-- Every account that has been registered can be entered again: its password
was chosen by a line, and is right for every line with the same first 72
characters. -/
theorem registered_right (rows : List Row) (events : List Event) :
    let world := World.after (hashedBy order salts later unread env) rows events
    ∀ row ∈ world.server.core.db.rows,
      row ∈ rows ∨ ∃ chosen ∈ handedIn world.trace,
        ChoosesPassword chosen.user chosen.line chosen.core ∧
          (chosen.core.users chosen.user).name = row.login ∧
          ∀ line : Bytes, (cStr chosen.line).take 72 = (cStr line).take 72 →
            row.password ≠ [] ∧
              (hashedBy order salts later unread env).crypt line row.password =
                row.password := by
  intro world row inside
  have provenance := (provenance_after _ rows events).2.table.genuine row inside
  apply provenance.imp id
  rintro ⟨chosen, confirmed, confirms, hash, -⟩
  refine ⟨chosen, confirms.inOrder.subset List.mem_cons_self,
    confirms.chose.chooses, confirms.chose.name, fun line agree => ?_⟩
  rw [hash]
  refine ⟨?_, crypt_cryptFresh order salts later unread env agree _⟩
  rw [Handed.hash, cryptFresh_hashedBy, ← List.length_pos_iff,
    (isBcryptHash_storedHash ..).length]
  decide

/-! ## Long passwords -/

theorem length_lt_of_take
    {line other : Bytes}
    (agree : line.take 72 = other.take 72) :
    line.length < minPasswordLen ↔ other.length < minPasswordLen := by
  have lengths := congrArg List.length agree
  rw [List.length_take, List.length_take] at lengths
  rw [minPasswordLen]
  omega

/-- A session that waits for a password or for its confirmation does not notice
what follows the first 72 characters. -/
theorem login_of_take
    {line other : Bytes}
    (agree : line.take 72 = other.take 72)
    (me : Nat)
    (core : Core)
    (stage : (core.users me).stage = .loginPwd ∨
      (core.users me).stage = .loginReenterPwd) :
    (login (hashedBy order salts later unread env) me line).run core =
      (login (hashedBy order salts later unread env) me other).run core := by
  have same : (cStr line).take 72 = (cStr other).take 72 := by
    rw [cStr, cStr, List.take_takeWhile, List.take_takeWhile, agree]
  have hashes := crypt_hashedBy order salts later unread env same
  have fresh := cryptFresh_congr order salts later unread env same
  have pwd : loginPwd (hashedBy order salts later unread env) me line =
      loginPwd (hashedBy order salts later unread env) me other := by
    simp only [loginPwd, hashes, fresh, length_lt_of_take agree]
  have reenter : loginReenterPwd (hashedBy order salts later unread env) me line =
      loginReenterPwd (hashedBy order salts later unread env) me other := by
    simp only [loginReenterPwd, hashes]
  rcases stage with stage | stage
  · simp only [login, user, Prog.run_bind_bind, Prog.run_get_bind,
      Prog.run_pure_bind, stage, pwd]
  · simp only [login, user, Prog.run_bind_bind, Prog.run_get_bind,
      Prog.run_pure_bind, stage, reenter]

end Hashes

/-- A session waits for a password. -/
def waiting : Core :=
  ({} : Core).setUser 0 fun user => { user with stage := .loginPwd }

/-- The 73rd character of a password makes no difference. -/
theorem login_of_take_long :
    let env := hashedBy .little (fun _ _ => 0) (fun _ => 0) id (Env.testing [])
    (login env 0 (List.replicate 72 97 ++ lit "x")).run waiting =
      (login env 0 (List.replicate 72 97 ++ lit "y")).run waiting :=
  login_of_take .little (fun _ _ => 0) (fun _ => 0) id (Env.testing [])
    (by decide) 0 waiting (.inl rfl)

end Network
end Lotospp
