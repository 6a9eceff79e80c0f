import CheetahMedia.Lib.Transition
import CheetahMedia.Webhook.Security
import Mathlib.Logic.Function.Basic

namespace CheetahMedia.Webhook
open Lib

inductive CircuitState
  | closed
  | opened
  | halfOpen
deriving DecidableEq

/-- Instants and durations in nanoseconds. -/
structure CircuitBreaker where
  threshold : Nat
  openDuration : Nat
  failures : Nat
  lastFailure : Option Nat
  lastSuccess : Option Nat

namespace CircuitBreaker

def new (threshold openDuration : Nat) : CircuitBreaker :=
  { threshold := max threshold 1, openDuration, failures := 0, lastFailure := none,
    lastSuccess := none }

def state (c : CircuitBreaker) (now : Nat) : CircuitState :=
  if c.threshold ≤ c.failures then
    match c.lastFailure with
    | some instant => if now - instant < c.openDuration then .opened else .halfOpen
    -- Failure count recorded but no timestamp; allow a probe.
    | none => .halfOpen
  else .closed

def allow (c : CircuitBreaker) (now : Nat) : Bool := c.state now = .closed || c.state now = .halfOpen

def recordSuccess (c : CircuitBreaker) (now : Nat) : CircuitBreaker :=
  { c with failures := 0, lastSuccess := some now }

def recordFailure (c : CircuitBreaker) (now : Nat) : CircuitBreaker :=
  { c with failures := (c.failures + 1) % 2 ^ 32, lastFailure := some now }

end CircuitBreaker

inductive WebhookProfileMode
  | nativeDomain
  | zlmCompatible

structure WebhookProfile where
  name : Text
  url : Text
  mode : WebhookProfileMode := .nativeDomain
  events : List Text := []
  secret : Option Text := none
  timeoutMs : Nat := 5000
  maxBodyBytes : Nat := 64 * 1024
  maxRetries : Nat := 2
  retryIntervalMs : Nat := 1000
  maxRetryDurationMs : Nat := 60000
  circuitFailureThreshold : Nat := 5
  circuitOpenMs : Nat := 30000
  allowedCidrs : List Text := []

namespace WebhookProfile

def wantsEvent (p : WebhookProfile) (hookName : Text) : Bool :=
  p.events.isEmpty || p.events.any (· = hookName)

def maxAttempts (p : WebhookProfile) : Nat := min (p.maxRetries + 1) (2 ^ 32 - 1)

end WebhookProfile

structure WebhookDispatcherConfig where
  profiles : List WebhookProfile

structure WebhookDispatch (Value : Type) where
  hookName : Text
  payload : Value

/-- Which event a job is for, which profile of the configuration and which dispatch. -/
structure JobId where
  event : Nat
  profile : Nat
  dispatch : Nat
deriving DecidableEq

/-- `id` is not in the code: it says what a job was made from. -/
structure WebhookJob (Key Value : Type) where
  id : JobId
  eventId : Text
  eventType : Text
  occurredAt : Int
  resource : Option Key
  profile : WebhookProfile
  dispatch : WebhookDispatch Value

structure EventHeader (Key : Type) where
  eventId : Text
  occurredAt : Int
  mediaKey : Option Key

structure WebhookHttpRequest where
  verdict : WebhookUrlVerdict
  headers : List (Text × Text)
  body : List UInt8
  timeoutMs : Nat

inductive WebhookSendError
  | io
  | timeout
  | invalidResponse
  | policy (reason : Text)
deriving DecidableEq

/-- What the dispatcher is built over: the translators and its own URL policy, and the URL, JSON
and signature libraries. -/
structure Env (Event Key Value : Type) where
  header : Event → EventHeader Key
  mediaEventType : Event → Option Text
  translators : WebhookProfileMode → Option (Event → List (WebhookDispatch Value))
  urlPolicy : WebhookUrlPolicy
  parseUrl : Text → Except Text Url
  payloadToVec : Value → Except Text (List UInt8)
  envelopeToVec : WebhookJob Key Value → Nat → Except Text (List UInt8)
  signBody : List UInt8 → Text → Except Text Text

def isSuccess (status : Nat) : Bool := 200 ≤ status && status < 300

def shouldRetryStatus (status : Nat) : Bool := status = 429 || (500 ≤ status && status < 600)

def shouldRetryError (e : WebhookSendError) : Bool :=
  e = .io || e = .timeout || e = .invalidResponse

def backoffMs (baseMs attempt capRemainingMs : Nat) : Nat :=
  let shift := min (attempt - 1) 63
  let raw := min (baseMs * 2 ^ shift) (2 ^ 64 - 1)
  min raw capRemainingMs

def webhookHeaders (eventId : Text) : List (Text × Text) :=
  [("Content-Type".toList, "application/json".toList), ("X-Event-Id".toList, eventId)]

section
variable {Event Key Value : Type}

def buildBody (env : Env Event Key Value) (job : WebhookJob Key Value) (attempt : Nat) :
    Except Text (List UInt8) :=
  match job.profile.mode with
  | .nativeDomain => env.envelopeToVec job attempt
  | .zlmCompatible => env.payloadToVec job.dispatch.payload

/-- A job under way: `attempts` of the attempts have begun. -/
structure Process (Key Value : Type) where
  job : WebhookJob Key Value
  verdict : WebhookUrlVerdict
  start : Nat
  attempts : Nat

/-- Where a worker's task stands: at the queue, before an attempt (with the deadline of the timer
from the second one on), or at the sender. -/
inductive Phase (Key Value : Type)
  | idle
  | waiting (p : Process Key Value) (deadline : Option Nat)
  | sending (p : Process Key Value)
  | stopped

structure TargetWorker (Key Value : Type) where
  profileName : Text
  urlPolicy : WebhookUrlPolicy
  circuit : CircuitBreaker
  queue : List (WebhookJob Key Value)
  phase : Phase Key Value

/-- A request that a worker gave to the sender, with the moment and the breaker it had then. -/
structure Sent (Key Value : Type) where
  job : WebhookJob Key Value
  request : WebhookHttpRequest
  circuit : CircuitBreaker
  instant : Nat

/-- The two clocks: instants in nanoseconds, the runtime's time in microseconds. -/
structure Clock where
  instant : Nat
  mono : Nat

namespace TargetWorker
variable (w : TargetWorker Key Value)

def succeed (clock : Clock) : TargetWorker Key Value :=
  { w with circuit := w.circuit.recordSuccess clock.instant, phase := .idle }

def fail (clock : Clock) : TargetWorker Key Value :=
  { w with circuit := w.circuit.recordFailure clock.instant, phase := .idle }

/-- The head of `process`, up to the first attempt. -/
def take (env : Env Event Key Value) (clock : Clock) (resolver : Resolver)
    (job : WebhookJob Key Value) : TargetWorker Key Value :=
  if !w.circuit.allow clock.instant then w
  else match w.urlPolicy.evaluate env.parseUrl resolver job.profile.url with
    | .error _ => w.fail clock
    | .ok verdict =>
      { w with phase := .waiting { job, verdict, start := clock.mono, attempts := 1 } none }

/-- One attempt, up to the sender. -/
def attempt (env : Env Event Key Value) (clock : Clock) (p : Process Key Value) :
    TargetWorker Key Value × List (Sent Key Value) :=
  match buildBody env p.job p.attempts with
  | .error _ => (w.fail clock, [])
  | .ok body =>
    if p.job.profile.maxBodyBytes < body.length then (w.fail clock, [])
    else
      let signature := match p.job.profile.secret with
        | some secret => match env.signBody body secret with
          | .ok signature => [("X-Webhook-Signature".toList, signature)]
          | .error _ => []
        | none => []
      let request : WebhookHttpRequest :=
        { verdict := p.verdict, headers := webhookHeaders p.job.eventId ++ signature, body,
          timeoutMs := p.job.profile.timeoutMs }
      ({ w with phase := .sending p },
        [{ job := p.job, request, circuit := w.circuit, instant := clock.instant }])

/-- The loop comes around: the next attempt waits for its timer, unless there is none. -/
def retry (clock : Clock) (p : Process Key Value) : TargetWorker Key Value :=
  if p.attempts < p.job.profile.maxAttempts then
    let attempts := p.attempts + 1
    let elapsedMs := (clock.mono - p.start) / 1000
    if p.job.profile.maxRetryDurationMs ≤ elapsedMs then w.fail clock
    else
      let delayMs := backoffMs p.job.profile.retryIntervalMs (attempts - 1)
        (p.job.profile.maxRetryDurationMs - elapsedMs)
      let deadline := min (clock.mono + delayMs * 1000 % 2 ^ 64) (2 ^ 64 - 1)
      { w with phase := .waiting { p with attempts } (some deadline) }
  else w.fail clock

/-- What the sender answers: a status, or an error. -/
def respond (clock : Clock) (p : Process Key Value) :
    Except WebhookSendError Nat → TargetWorker Key Value
  | .ok status =>
    if isSuccess status then w.succeed clock
    else if shouldRetryStatus status then w.retry clock p
    else w.fail clock
  | .error e => if shouldRetryError e then w.retry clock p else w.fail clock

/-- What a worker's task can do next. -/
inductive Turn
  | take (resolver : Resolver)
  | attempt
  | respond (answer : Except WebhookSendError Nat)
  | quit

/-- A task that is cancelled takes no more jobs, and may end at the queue or at a timer. -/
def turn (env : Env Event Key Value) (clock : Clock) (cancelled : Bool) :
    Turn → Option (TargetWorker Key Value × List (Sent Key Value))
  | .take resolver => match w.phase, w.queue with
    | .idle, job :: rest =>
      if cancelled then none
      else some (take { w with queue := rest } env clock resolver job, [])
    | _, _ => none
  | .attempt => match w.phase with
    | .waiting p deadline =>
      if ∀ d ∈ deadline, d ≤ clock.mono then some (w.attempt env clock p) else none
    | _ => none
  | .respond answer => match w.phase with
    | .sending p => some (w.respond clock p answer, [])
    | _ => none
  | .quit => match w.phase with
    | .idle | .waiting _ (some _) =>
      if cancelled then some ({ w with phase := .stopped }, []) else none
    | _ => none

end TargetWorker

/-- The policy of a profile, or the dispatcher's if its CIDRs do not parse. -/
def targetPolicy (env : Env Event Key Value) (p : WebhookProfile) : WebhookUrlPolicy :=
  match WebhookUrlPolicy.fromCidrStrings p.allowedCidrs with
  | .ok policy => policy
  | .error _ => env.urlPolicy

def newWorker (env : Env Event Key Value) (p : WebhookProfile) : TargetWorker Key Value where
  profileName := p.name
  urlPolicy := targetPolicy env p
  circuit := CircuitBreaker.new p.circuitFailureThreshold (p.circuitOpenMs * 1000000)
  queue := []
  phase := .idle

/-- The jobs of one profile for an event. -/
def jobsFor (env : Env Event Key Value) (number : Nat) (event : Event) (profile : WebhookProfile)
    (i : Nat) : List (WebhookJob Key Value) :=
  match env.translators profile.mode with
  | none => []
  | some translate => (translate event).zipIdx.filterMap fun (dispatch, k) =>
    if profile.wantsEvent dispatch.hookName then
      some
        { id := { event := number, profile := i, dispatch := k }
          eventId := (env.header event).eventId
          eventType := (env.mediaEventType event).getD []
          occurredAt := (env.header event).occurredAt
          resource := (env.header event).mediaKey
          profile, dispatch }
    else none

/-- The jobs of an event, in order. -/
def jobsOf (env : Env Event Key Value) (number : Nat) (profiles : List WebhookProfile)
    (event : Event) : List (WebhookJob Key Value) :=
  profiles.zipIdx.flatMap fun (profile, i) => jobsFor env number event profile i

abbrev Workers (Key Value : Type) := Text → Option (TargetWorker Key Value)

/-- A channel of 128 with one sender has room for one more. -/
def TargetWorker.trySend (w : TargetWorker Key Value) (job : WebhookJob Key Value) :
    TargetWorker Key Value :=
  if w.queue.length ≤ 128 then { w with queue := w.queue ++ [job] } else w

def enqueue (env : Env Event Key Value) (workers : Workers Key Value)
    (job : WebhookJob Key Value) : Workers Key Value :=
  let w := (workers job.profile.name).getD (newWorker env job.profile)
  Function.update workers job.profile.name (some (w.trySend job))

/-- The dispatcher's task with its workers. -/
structure System (Key Value : Type) where
  config : WebhookDispatcherConfig
  workers : Workers Key Value
  handled : Nat
  clock : Clock
  cancelled : Bool

def System.new (config : WebhookDispatcherConfig) (clock : Clock) : System Key Value :=
  { config, workers := fun _ => none, handled := 0, clock, cancelled := false }

inductive Label (Event : Type)
  | setConfig (config : WebhookDispatcherConfig)
  | event (e : Event)
  | turn (name : Text) (t : TargetWorker.Turn)
  | elapse (instant mono : Nat)
  | cancel

/-- Everything that can happen next. -/
def step (env : Env Event Key Value) :
    Transition (System Key Value) (Label Event) (Sent Key Value)
  | s, .setConfig config => some ({ s with config }, [])
  | s, .event e =>
    if s.cancelled then none
    else
      let jobs := jobsOf env s.handled s.config.profiles e
      some ({ s with workers := jobs.foldl (enqueue env) s.workers, handled := s.handled + 1 }, [])
  | s, .turn name t =>
    match s.workers name with
    | none => none
    | some w => (w.turn env s.clock s.cancelled t).map fun r =>
      ({ s with workers := Function.update s.workers name (some r.1) }, r.2)
  | s, .elapse instant mono =>
    some ({ s with clock := ⟨s.clock.instant + instant, s.clock.mono + mono⟩ }, [])
  | s, .cancel => some ({ s with cancelled := true }, [])

end
end CheetahMedia.Webhook
