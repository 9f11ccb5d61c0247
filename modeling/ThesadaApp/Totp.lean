import ThesadaApp.Basic

/-!
Time-based one-time codes with a 30 second step and 6 digits. The base32 decoder and the truncated HMAC of
a counter are parameters.
-/

namespace ThesadaApp

structure Totp where
  /-- `DecodeKey`. -/
  decodeKey : String → Option (List UInt8)
  /-- The 6 digits of a key at a counter. -/
  digits : List UInt8 → Nat → String

namespace Totp

/-- `t.Unix()`. -/
def unix (t : Time) : Int := t / seconds 1

/-- `t.Unix() / 30`, which truncates. -/
def stepOf (t : Time) : Int := (unix t).tdiv 30

/-- `Code`: a time before the epoch counts from zero. -/
def code (c : Totp) (key : List UInt8) (at' : Time) : String := c.digits key ((unix at').toNat / 30)

/-- `VerifyStep`: the step before, the current one and the step after. -/
def verifyStep (c : Totp) (key : List UInt8) (presented : String) (now : Time) : Option Int :=
  if presented.utf8ByteSize ≠ 6 then none
  else ([now - seconds 30, now, now + seconds 30].find? fun t => c.code key t = presented).map stepOf

/-- `CheckStep`; a secret that does not decode is an error. -/
def checkStep (c : Totp) (secret presented : String) (now : Time) : Except Unit (Option Int) :=
  match c.decodeKey secret with
  | none => .error ()
  | some key => .ok (c.verifyStep key presented now)

/-- The code is the secret's at a time step around now. -/
def Accepts (c : Totp) (secret presented : String) (now : Time) (step : Int) : Prop :=
  c.checkStep secret presented now = .ok (some step)

end Totp

end ThesadaApp
