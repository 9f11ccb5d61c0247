import ThesadaApp.EnrollApi
import ThesadaApp.MachineRun
import ThesadaApp.SlidingWindow

/-!
The caps of the mail that anybody can ask for: one limiter for clients and one for addresses, under one lock. A call
asks the first, spends at the second and then at the first; the sweepers run in between as they like.
-/

namespace ThesadaApp

/-- `WouldAllow`: no hit is recorded. -/
def Limiter.wouldAllow (l : Limiter) (now : Time) (key : String) : Bool :=
  ((l.hits key).filter fun t => now - l.window < t).length < l.max

/-- `sweep`. A key without hits is as good as no key. -/
def Limiter.sweep (l : Limiter) (now : Time) : Limiter :=
  { l with hits := fun key => (l.hits key).filter fun t => now - l.window < t }

namespace Mail

section model

def maxPerIP : Nat := 5

def maxPerEmail : Nat := maxPerIP * 4

/-- One hour, in the nanoseconds of the clock. -/
def window : Time := 3600000000000

/-- How far a call of `allow` has come. -/
inductive Stage where
  /-- The client is under its cap. -/
  | checked
  /-- The address has been charged. -/
  | charged (at_ : Time)
  deriving DecidableEq

/-- The call that holds the lock: the address it was asked for, and the one in lower case that it goes on with. -/
structure Call where
  submitted : String
  email : String
  ip : String
  stage : Stage
  deriving DecidableEq

/-- A call that was let through: the address as it was asked for, and when either limiter recorded it. -/
structure Accepted where
  submitted : String
  ip : String
  chargedAt : Time
  spentAt : Time
  deriving DecidableEq

structure State where
  byEmail : Limiter
  byIP : Limiter
  clock : Time
  call : Option Call

def State.start (clock : Time) : State :=
  ⟨⟨window, maxPerEmail, fun _ => []⟩, ⟨window, maxPerIP, fun _ => []⟩, clock, none⟩

/-- What happens, at a reading of the clock. -/
inductive Action where
  /-- A call takes the lock and asks for its client. -/
  | allow (email ip : String) (now : Time)
  | chargeEmail (now : Time)
  | spendIP (now : Time)
  | sweepEmail (now : Time)
  | sweepIP (now : Time)

def Action.now : Action → Time
  | .allow _ _ now | .chargeEmail now | .spendIP now | .sweepEmail now | .sweepIP now => now

inductive Event where
  | accepted (a : Accepted)
  | refused (submitted ip : String)
  | quiet
  deriving DecidableEq

variable (toLower : String → String)

def State.at (s : State) (now : Time) (call : Option Call) : State := { s with clock := now, call := call }

def stepState (s : State) : Action → Option (State × Event)
  | .allow email ip now =>
      match s.call with
      | some _ => none
      | none =>
          if ip ≠ "" ∧ s.byIP.wouldAllow now ("ip:" ++ ip) = false then some (s.at now none, .refused email ip)
          else some (s.at now (some ⟨email, toLower email, ip, .checked⟩), .quiet)
  | .chargeEmail now =>
      match s.call with
      | some ⟨submitted, email, ip, .checked⟩ =>
          match s.byEmail.allow now ("email:" ++ email) with
          | (byEmail, true) =>
              some (({ s with byEmail := byEmail }).at now (some ⟨submitted, email, ip, .charged now⟩), .quiet)
          | (byEmail, false) => some (({ s with byEmail := byEmail }).at now none, .refused submitted ip)
      | _ => none
  | .spendIP now =>
      match s.call with
      | some ⟨submitted, _, ip, .charged at_⟩ =>
          if ip = "" then some (s.at now none, .accepted ⟨submitted, ip, at_, now⟩)
          else
            match s.byIP.allow now ("ip:" ++ ip) with
            | (byIP, true) => some (({ s with byIP := byIP }).at now none, .accepted ⟨submitted, ip, at_, now⟩)
            | (byIP, false) => some (({ s with byIP := byIP }).at now none, .refused submitted ip)
      | _ => none
  | .sweepEmail now => some (({ s with byEmail := s.byEmail.sweep now }).at now s.call, .quiet)
  | .sweepIP now => some (({ s with byIP := s.byIP.sweep now }).at now s.call, .quiet)

/-- The clock never goes back. -/
def system : Machine State Action Event where
  step s a := if s.clock ≤ a.now then stepState toLower s a else none

end model

/-- The calls that were let through. -/
def accepted (log : List Event) : List Accepted :=
  log.filterMap fun e => match e with
    | .accepted a => some a
    | _ => none

end Mail

end ThesadaApp
