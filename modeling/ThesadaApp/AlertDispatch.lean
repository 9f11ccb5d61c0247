import ThesadaApp.AuthSessions
import ThesadaApp.KeyedTable
import ThesadaApp.MachineRun

/-!
The delivery of one alert: `Dispatch` after the ingest and the redispatch sweep, run after run. The in-process claim
keeps the runs of one alert apart, so a run is one step; between runs subscriptions and users change. How each send
and each write of a run ends is in its environment.
-/

namespace ThesadaApp.Alerts

inductive Channel where
  | email
  | telegram
  | webhook
  deriving DecidableEq

inductive Severity where
  | info
  | warn
  | crit
  deriving DecidableEq

def Severity.rank : Severity → Nat
  | .info => 0
  | .warn => 1
  | .crit => 2

inductive Status where
  | pending
  | delivered
  /-- No subscription matched. -/
  | none
  | dead
  deriving DecidableEq

/-- The delivery columns of the alert, and what its subscriptions are matched against. -/
structure AlertRow where
  devicePK : UUID
  severity : Severity
  deliveredEmail : Bool
  deliveredTelegram : Bool
  deliveredWebhook : Bool
  status : Status
  attempts : Nat
  nextAttemptAt : Time
  deriving DecidableEq

/-- A row of `alert_subscriptions`; without a device it is for all of the tenant's. -/
structure Subscription where
  id : UUID
  userID : UUID
  devicePK : Option UUID
  channel : Channel
  minSeverity : Severity
  destination : Option String
  deriving DecidableEq

structure Contact where
  email : String
  telegramChatID : Option String
  deriving DecidableEq

/-- One subscription the alert was matched against. -/
structure Recipient where
  subID : UUID
  userID : UUID
  channel : Channel
  email : String
  telegramChatID : Option String
  destination : Option String
  deriving DecidableEq

structure Config where
  alertMaxAttempts : Int
  alertRetryBase : Int

def Config.maxAttempts (c : Config) : Nat := if c.alertMaxAttempts < 1 then 1 else c.alertMaxAttempts.toNat

def Config.retryBase (c : Config) : Int := if c.alertRetryBase ≤ 0 then seconds 60 else c.alertRetryBase

/-- Doubled for each completed attempt, at most 6 times: the shift is that of an int64. -/
def retryBackoff (base : Int) (attempts : Nat) : Int := (base <<< min (attempts - 1) 6).bmod 18446744073709551616

/-- What a send comes to. -/
inductive Send where
  | ok
  | failed
  | panicked
  deriving DecidableEq

/-- What one run meets: whether it reads its rows, renders and encodes, the result of each send by its subscription,
how the transaction ends that records a posted webhook and the one that records the outcome, and the clock. -/
structure RunEnv where
  cfg : Config
  loads : Bool
  renders : Bool
  encodes : Bool
  send : UUID → Send
  mark : UUID → Commit
  write : Commit
  appNow : Time

/-- `alert_webhook_deliveries` of the alert is the list of its subscriptions. -/
structure State where
  alert : AlertRow
  subscriptions : KeyedTable Subscription.id
  users : UUID → Option Contact
  deliveries : List UUID
  /-- The ids of deleted subscriptions, which are not given out again. -/
  retired : List UUID

/-- No id has been retired yet. -/
def start (alert : AlertRow) (subscriptions : KeyedTable Subscription.id) (users : UUID → Option Contact)
    (deliveries : List UUID) : State :=
  ⟨alert, subscriptions, users, deliveries, []⟩

/-- A call of `sendEmail`, `sendTG` or `sendWebhook`, and for a webhook whether it was recorded. -/
structure Sent where
  subID : UUID
  channel : Channel
  ok : Bool
  recorded : Bool
  deriving DecidableEq

/-- What a run has done: the recipients it had, the sends it made, and the status it recorded. -/
structure Report where
  recipients : List Recipient
  sends : List Sent
  recorded : Option Status

def Report.idle : Report := ⟨[], [], none⟩

inductive Event where
  | changed
  | run (report : Report)

/-- `loadRecipients`, in some order. -/
def State.loadRecipients (s : State) : List Recipient :=
  s.subscriptions.rows.filterMap fun sub => (s.users sub.userID).bind fun u =>
    if sub.devicePK.all (· = s.alert.devicePK) ∧ sub.minSeverity.rank ≤ s.alert.severity.rank then
      some ⟨sub.id, sub.userID, sub.channel, u.email, u.telegramChatID, sub.destination⟩
    else none

/-- Which channels accepted this attempt. -/
structure DeliveryFlags where
  email : Bool
  telegram : Bool
  webhook : Bool

/-- `recordOutcome`: the state, and whether the write has landed. -/
def recordOutcome (s : State) (write : Commit) (sent : DeliveryFlags) (status : Status) (attempts : Nat)
    (next : Option Time) : State × Option Status :=
  if write = .refused then (s, none)
  else ({ s with alert := { s.alert with
            deliveredEmail := s.alert.deliveredEmail || sent.email
            deliveredTelegram := s.alert.deliveredTelegram || sent.telegram
            deliveredWebhook := s.alert.deliveredWebhook || sent.webhook
            status
            attempts
            nextAttemptAt := next.getD s.alert.nextAttemptAt } }, some status)

/-- The variables of the send loop. -/
structure Progress where
  emailOK : Bool
  tgOK : Bool
  sentHooks : List UUID
  deliveries : List UUID
  sends : List Sent

def Progress.start (loaded : List UUID) : Progress := ⟨false, false, loaded, loaded, []⟩

/-- A channel of the alert that has been delivered is left alone, and so is a webhook that has accepted it. -/
def skips (row : AlertRow) (sentHooks : List UUID) (r : Recipient) : Bool :=
  match r.channel with
  | .email => row.deliveredEmail
  | .telegram => row.deliveredTelegram || r.telegramChatID.all (· = "")
  | .webhook => row.deliveredWebhook || r.subID ∈ sentHooks

/-- One send that has ended, `true` if it panicked. -/
def sendTo (env : RunEnv) (p : Progress) (r : Recipient) : Progress × Bool :=
  let send := env.send r.subID
  let recorded := r.channel = .webhook && send = .ok && env.mark r.subID ≠ .refused
  ({ emailOK := p.emailOK || r.channel = .email && send = .ok
     tgOK := p.tgOK || r.channel = .telegram && send = .ok
     -- an answer that is lost is an error here, and the row is there
     sentHooks := if r.channel = .webhook && send = .ok && env.mark r.subID = .acked then r.subID :: p.sentHooks
       else p.sentHooks
     deliveries := if recorded then r.subID :: p.deliveries else p.deliveries
     sends := p.sends ++ [⟨r.subID, r.channel, send = .ok, recorded⟩] }, send = .panicked)

/-- The loop over the recipients, `true` if it panicked. -/
def sendAll (row : AlertRow) (env : RunEnv) : List Recipient → Progress → Progress × Bool
  | [], p => (p, false)
  | r :: rest, p =>
      if skips row p.sentHooks r then sendAll row env rest p
      else
        let sent := sendTo env p r
        if sent.2 then (sent.1, true) else sendAll row env rest sent.1

/-- A channel is needed when it has a matching subscription and was not delivered by an earlier attempt. -/
def needs (row : AlertRow) (sentHooks : List UUID) (recipients : List Recipient) (channel : Channel) : Bool :=
  recipients.any fun r => r.channel = channel && match channel with
    | .email => !row.deliveredEmail
    | .telegram => !row.deliveredTelegram
    | .webhook => !(row.deliveredWebhook || r.subID ∈ sentHooks)

/-- Every matching webhook has accepted the alert, and there is one. -/
def hookOK (row : AlertRow) (sentHooks : List UUID) (recipients : List Recipient) : Bool :=
  let hooks := recipients.filter fun r => r.channel = .webhook
  !hooks.isEmpty && hooks.all fun r => r.subID ∈ sentHooks || row.deliveredWebhook

/-- A failed attempt: pending with backoff, or dead once the budget is spent. -/
def recordFailed (s : State) (env : RunEnv) (sent : DeliveryFlags) : State × Option Status :=
  let attempts := s.alert.attempts + 1
  if env.cfg.maxAttempts ≤ attempts then recordOutcome s env.write sent .dead attempts none
  else recordOutcome s env.write sent .pending attempts (some (env.appNow + retryBackoff env.cfg.retryBase attempts))

/-- How a run ends whose loop has come to its end. -/
def recordRun (s : State) (env : RunEnv) (recipients : List Recipient) (loaded : List UUID) (p : Progress) :
    State × Option Status :=
  let hook := hookOK s.alert p.sentHooks recipients
  let sent := ⟨p.emailOK, p.tgOK, hook⟩
  if (!needs s.alert loaded recipients .email || p.emailOK) && (!needs s.alert loaded recipients .telegram || p.tgOK) &&
      (!needs s.alert loaded recipients .webhook || hook) then
    recordOutcome s env.write sent .delivered (s.alert.attempts + 1) none
  else recordFailed s env sent

/-- `Dispatch`, with the recipients in the order the query returned them. A panic that it has counted goes on to its
caller, which recovers it. -/
def dispatch (s : State) (recipients : List Recipient) (env : RunEnv) : State × Report :=
  if env.loads = false ∨ s.alert.status ≠ .pending then (s, .idle)
  else if recipients = [] then
    let recorded := recordOutcome s env.write ⟨false, false, false⟩ .none s.alert.attempts none
    (recorded.1, ⟨[], [], recorded.2⟩)
  else if env.renders = false then
    let recorded := recordFailed s env ⟨false, false, false⟩
    (recorded.1, ⟨recipients, [], recorded.2⟩)
  else if needs s.alert s.deliveries recipients .webhook ∧ env.encodes = false then (s, ⟨recipients, [], none⟩)
  else
    let sent := sendAll s.alert env recipients (.start s.deliveries)
    let s' := { s with deliveries := sent.1.deliveries }
    let recorded := if sent.2 then recordFailed s' env ⟨sent.1.emailOK, sent.1.tgOK, false⟩
      else recordRun s' env recipients s.deliveries sent.1
    (recorded.1, ⟨recipients, sent.1.sends, recorded.2⟩)

inductive Action where
  | subscribe (sub : Subscription)
  | unsubscribe (id : UUID)
  | setContact (user : UUID) (contact : Contact)
  | deleteUser (user : UUID)
  | dispatch (recipients : List Recipient) (env : RunEnv)
  /-- The redispatch sweep comes to the alert if it is pending and due. -/
  | sweep (now : Time) (recipients : List Recipient) (env : RunEnv)

/-- DELETE of subscriptions, with their deliveries. -/
def State.unsubscribe (s : State) (p : Subscription → Bool) : State :=
  let ids := (s.subscriptions.rows.filter p).map Subscription.id
  { s with
    subscriptions := s.subscriptions.deleteWhere p
    deliveries := s.deliveries.filter fun id => id ∉ ids
    retired := ids ++ s.retired }

def stepDispatch (s : State) (recipients : List Recipient) (env : RunEnv) : Option (State × Event) :=
  if recipients.Perm s.loadRecipients then
    let ran := dispatch s recipients env
    some (ran.1, .run ran.2)
  else none

def step (s : State) : Action → Option (State × Event)
  | .subscribe sub =>
      if h : s.subscriptions.find sub.id = none ∧ sub.id ∉ s.retired then
        some ({ s with subscriptions := s.subscriptions.insert sub h.1 }, .changed)
      else none
  | .unsubscribe id => some (s.unsubscribe fun sub => sub.id = id, .changed)
  | .setContact user contact => some ({ s with users := Function.update s.users user (some contact) }, .changed)
  | .deleteUser user =>
      some ({ s.unsubscribe fun sub => sub.userID = user with users := Function.update s.users user none }, .changed)
  | .dispatch recipients env => stepDispatch s recipients env
  | .sweep now recipients env =>
      if s.alert.status = .pending ∧ s.alert.nextAttemptAt ≤ now then stepDispatch s recipients env else none

def system : Machine State Action Event where
  step := step

end ThesadaApp.Alerts
