import CheetahMedia.Lib.Workers

namespace CheetahMedia.Engine
open Lib

inductive MediaSchema
  | rtsp
  | rtmp
  | httpFlv
  | hls
  | webrtc
  | ts
  | fmp4
  | srt
  | rtp
deriving DecidableEq

def MediaSchema.text : MediaSchema → String
  | .rtsp => "rtsp"
  | .rtmp => "rtmp"
  | .httpFlv => "http-flv"
  | .hls => "hls"
  | .webrtc => "webrtc"
  | .ts => "ts"
  | .fmp4 => "fmp4"
  | .srt => "srt"
  | .rtp => "rtp"

structure MediaKey where
  vhost : String
  app : String
  stream : String
  schema : Option MediaSchema := none
deriving DecidableEq

def MediaKey.toCanonical (key : MediaKey) : String :=
  match key.schema with
  | some schema =>
    key.vhost ++ "/" ++ key.app ++ "/" ++ key.stream ++ "?schema=" ++ schema.text
  | none => key.vhost ++ "/" ++ key.app ++ "/" ++ key.stream

inductive MediaScope
  | mediaRead
  | mediaControl
  | mediaPublish
  | mediaConsume
  | recordManage
  | fileRead
  | fileDelete
  | serverAdmin
deriving DecidableEq

inductive Pattern
  | exact (s : String)
  | wildcard
deriving DecidableEq

def Pattern.allows : Pattern → String → Bool
  | .wildcard, _ => true
  | .exact s, value => s == value

structure MediaResourceSelector where
  vhost : Pattern := .wildcard
  app : Pattern := .wildcard
  stream : Pattern := .wildcard
deriving DecidableEq

def MediaResourceSelector.allows (selector : MediaResourceSelector) (key : MediaKey) : Bool :=
  selector.vhost.allows key.vhost && selector.app.allows key.app &&
    selector.stream.allows key.stream

structure MediaResourceGrant where
  selector : MediaResourceSelector
  scopes : List MediaScope
deriving DecidableEq

structure Principal where
  scopes : List MediaScope := []
  resourceGrants : List MediaResourceGrant := []
deriving DecidableEq

def Principal.hasScope (p : Principal) (scope : MediaScope) : Bool :=
  p.scopes.any fun s => s == scope || s == .serverAdmin

def Principal.authorizes (p : Principal) (scope : MediaScope) (key : Option MediaKey) : Bool :=
  p.hasScope scope ||
    match key with
    | none => false
    | some key => p.resourceGrants.any fun grant => grant.scopes.contains scope &&
        grant.selector.allows key

/-- What the directory reads of a request: who makes it, and whether its deadline is over. -/
structure MediaRequestContext where
  principal : Option Principal := none
  expired : Bool := false
deriving DecidableEq

def authorized (ctx : MediaRequestContext) (scope : MediaScope) (key : Option MediaKey) : Bool :=
  match ctx.principal with
  | none => true
  | some p => p.authorizes scope key

inductive SessionKind
  | publisher
  | player
  | proxy
  | rtpSender
  | rtpReceiver
deriving DecidableEq

inductive CloseReason
  | normal
  | timeout
  | kicked
  | idle
  | error
  | unsupported
  | other (text : String)
deriving DecidableEq

structure SessionInfo where
  sessionId : String := ""
  kind : SessionKind := .publisher
  mediaKey : MediaKey
  remoteEndpoint : Option String := none
  protocol : String := "internal"
deriving DecidableEq

structure CloseReport where
  mediaKey : MediaKey
  closedSessions : List String
  reason : CloseReason
deriving DecidableEq

namespace SessionDirectory

/-- A session with its close handle; the handles are numbered as the sessions are registered. -/
structure Record where
  info : SessionInfo
  closeHandle : Nat
deriving DecidableEq

/-- The records of the map, each under its `sessionId`. -/
structure Inner where
  sessions : List Record := []
  nextId : Nat := 1
  nextHandle : Nat := 0

inductive Answer
  | registered (id : String)
  | unregistered
  | closed (report : CloseReport)
  | unavailable
  | alreadyExists (text : String)
  | notFound (text : String)
  /-- The error of a close handle. -/
  | handleError
deriving DecidableEq

inductive Event
  | sessionOpened (record : Record)
  | sessionClosed (record : Record) (reason : CloseReason)
  /-- A caller has called the close handle of a session. -/
  | closeCalled (ctx : MediaRequestContext) (record : Record)
  | closeFailed (record : Record)
  | returned (answer : Answer)
deriving DecidableEq

inductive Call
  | registerSession (ctx : MediaRequestContext) (info : SessionInfo)
  | unregisterSession (id : String)
  | closeSession (ctx : MediaRequestContext) (id : String) (reason : CloseReason)
  /-- `order` has the ids that the iterator over the map comes to. -/
  | closeSessionsForKey (ctx : MediaRequestContext) (key : MediaKey) (reason : CloseReason)
    (order : List String)

/-- What is left for a caller to do between two steps that others can see. -/
inductive Task
  | register (ctx : MediaRequestContext) (info : SessionInfo)
  | entry (info : SessionInfo)
  | unregister (id : String)
  | emitClosed (record : Record)
  | lookup (ctx : MediaRequestContext) (id : String) (reason : CloseReason)
  | remove (ctx : MediaRequestContext) (id : String) (reason : CloseReason) (key : Option MediaKey)
  | close (record : Record) (reason : CloseReason)
  | authorize (ctx : MediaRequestContext) (key : MediaKey) (reason : CloseReason)
    (order : List String)
  | scan (ctx : MediaRequestContext) (key : MediaKey) (reason : CloseReason) (order : List String)
    (keysToRemove : List String)
  | removeAll (ctx : MediaRequestContext) (key : MediaKey) (reason : CloseReason)
    (keysToRemove : List String) (handles : List Record)
  | callAll (ctx : MediaRequestContext) (key : MediaKey) (reason : CloseReason)
    (handles : List Record) (closed : List String)
  | closeAll (ctx : MediaRequestContext) (key : MediaKey) (reason : CloseReason) (record : Record)
    (handles : List Record) (closed : List String)
deriving DecidableEq

def newId (n : Nat) : String :=
  let digits := Nat.toDigits 16 n
  "sess-" ++ String.ofList (List.replicate (16 - digits.length) '0' ++ digits)

namespace Inner

def get (s : Inner) (id : String) : Option Record := s.sessions.find? (·.info.sessionId == id)

def erase (s : Inner) (id : String) : Inner :=
  { s with sessions := s.sessions.eraseP (·.info.sessionId == id) }

end Inner

def start : Call → List Task
  | .registerSession ctx info => [.register ctx info]
  | .unregisterSession id => [.unregister id]
  | .closeSession ctx id reason => [.lookup ctx id reason]
  | .closeSessionsForKey ctx key reason order => [.authorize ctx key reason order]

/-- What the close handle of a session comes to: the id it returns, or an error. -/
abbrev CloseHandles := Nat → Option String

/-- The next step of a caller; the record is locked for as long as one step takes. -/
def exec (handles : CloseHandles) : Task → Inner → Option (Inner × List Task × List Event)
  | .register ctx info, s =>
    if ctx.expired then some (s, [], [.returned .unavailable])
    else if info.sessionId = "" then
      some ({ s with nextId := s.nextId + 1 },
        [.entry { info with sessionId := newId s.nextId }], [])
    else some (s, [.entry info], [])
  | .entry info, s =>
    match s.get info.sessionId with
    | some _ => some (s, [], [.returned (.alreadyExists ("session " ++ info.sessionId))])
    | none =>
      let record : Record := ⟨info, s.nextHandle⟩
      some ({ s with sessions := s.sessions ++ [record], nextHandle := s.nextHandle + 1 }, [],
        [.sessionOpened record, .returned (.registered info.sessionId)])
  | .unregister id, s =>
    match s.get id with
    | none => some (s, [], [.returned .unregistered])
    | some record => some (s.erase id, [.emitClosed record], [])
  | .emitClosed record, s =>
    some (s, [], [.sessionClosed record .normal, .returned .unregistered])
  | .lookup ctx id reason, s =>
    let key := (s.get id).map (·.info.mediaKey)
    match key with
    | none => some (s, [.remove ctx id reason none], [])
    | some key =>
      if authorized ctx .mediaControl (some key) then
        some (s, [.remove ctx id reason (some key)], [])
      else some (s, [], [.returned (.notFound ("session " ++ id))])
  | .remove ctx id reason _, s =>
    match s.get id with
    | none => some (s, [], [.returned (.notFound ("session " ++ id))])
    | some record => some (s.erase id, [.close record reason], [.closeCalled ctx record])
  | .close record reason, s =>
    match handles record.closeHandle with
    | none => some (s, [], [.closeFailed record, .returned .handleError])
    | some closedId => some (s, [], [.sessionClosed record reason,
        .returned (.closed ⟨record.info.mediaKey, [closedId], reason⟩)])
  | .authorize ctx key reason order, s =>
    if authorized ctx .mediaControl (some key) then some (s, [.scan ctx key reason order []], [])
    else some (s, [], [.returned (.notFound ("stream " ++ key.toCanonical))])
  | .scan ctx key reason [] keysToRemove, s =>
    some (s, [.removeAll ctx key reason keysToRemove []], [])
  | .scan ctx key reason (id :: order) keysToRemove, s =>
    let found := (s.get id).any (·.info.mediaKey = key)
    let keysToRemove := if found then keysToRemove ++ [id] else keysToRemove
    some (s, [.scan ctx key reason order keysToRemove], [])
  | .removeAll ctx key reason [] handles, s => some (s, [.callAll ctx key reason handles []], [])
  | .removeAll ctx key reason (id :: keysToRemove) handles, s =>
    match s.get id with
    | none => some (s, [.removeAll ctx key reason keysToRemove handles], [])
    | some record =>
      some (s.erase id, [.removeAll ctx key reason keysToRemove (handles ++ [record])], [])
  | .callAll _ key reason [] closed, s => some (s, [], [.returned (.closed ⟨key, closed, reason⟩)])
  | .callAll ctx key reason (record :: handles) closed, s =>
    some (s, [.closeAll ctx key reason record handles closed], [.closeCalled ctx record])
  | .closeAll ctx key reason record rest closed, s =>
    match handles record.closeHandle with
    | some closedId =>
      some (s, [.callAll ctx key reason rest (closed ++ [closedId])],
        [.sessionClosed record reason])
    | none =>
      some (s, [.callAll ctx key reason rest (closed ++ [record.info.sessionId])],
        [.closeFailed record])

/-- Callers that share a directory. -/
abbrev step (handles : CloseHandles) : Transition (Workers.State Inner Task) (Workers.Action Call)
    (Nat × Event) :=
  Workers.step start (exec handles)

/-- The sessions that a caller has taken out of the map and not yet reported closed. -/
def Task.held : Task → List Record
  | .emitClosed record | .close record _ => [record]
  | .removeAll _ _ _ _ handles | .callAll _ _ _ handles _ => handles
  | .closeAll _ _ _ record handles _ => record :: handles
  | _ => []

def Event.opens (h : Nat) : Event → Bool
  | .sessionOpened record => record.closeHandle == h
  | _ => false

def Event.closes (h : Nat) : Event → Bool
  | .sessionClosed record _ => record.closeHandle == h
  | _ => false

/-- The session has been reported closed, or its close handle has failed. -/
def Event.ends (h : Nat) : Event → Bool
  | .sessionClosed record _ | .closeFailed record => record.closeHandle == h
  | _ => false

/-- The sessions of a handle among some records: one or none. -/
def among (h : Nat) (records : List Record) : Nat := records.countP (·.closeHandle == h)

def given (s : Inner) (h : Nat) : Nat := if h < s.nextHandle then 1 else 0

section Effect

/-- An event that neither opens nor ends a session. -/
def Event.Quiet : Event → Prop
  | .closeCalled _ _ | .returned _ => True
  | _ => False

/-- What one step of a caller does to the sessions. -/
inductive Effect (t : Task) (s : Inner) : Inner → List Task → List Event → Prop
  | quiet {more : List Task} {es : List Event} (nextId : Nat)
    (hheld : more.flatMap Task.held = t.held) (hes : ∀ e ∈ es, e.Quiet) :
    Effect t s { s with nextId } more es
  | opened (info : SessionInfo) (answer : Answer) (hheld : t.held = []) : Effect t s
      { s with sessions := s.sessions ++ [⟨info, s.nextHandle⟩], nextHandle := s.nextHandle + 1 } []
      [.sessionOpened ⟨info, s.nextHandle⟩, .returned answer]
  | taken {more : List Task} {es : List Event} {record : Record} (id : String)
    (hget : s.get id = some record)
    (hheld : more.flatMap Task.held = t.held ++ [record]) (hes : ∀ e ∈ es, e.Quiet) :
    Effect t s (s.erase id) more es
  | closed {more : List Task} {es : List Event} {record : Record} (reason : CloseReason)
    (hheld : t.held = record :: more.flatMap Task.held)
    (hes : ∀ e ∈ es, e.Quiet) : Effect t s s more (.sessionClosed record reason :: es)
  | failed {more : List Task} {es : List Event} {record : Record}
    (hheld : t.held = record :: more.flatMap Task.held) (hes : ∀ e ∈ es, e.Quiet) :
    Effect t s s more (.closeFailed record :: es)

variable {s s' : Inner} {t : Task} {more : List Task} {es : List Event}

theorem quiet_nil : ∀ e ∈ ([] : List Event), e.Quiet := by
  intro e he
  cases he

theorem quiet_singleton (he : Event.Quiet e) : ∀ e' ∈ [e], e'.Quiet := by
  intro e' he'
  cases List.mem_singleton.mp he'
  exact he

theorem exec_effect (h : exec handles t s = some (s', more, es)) : Effect t s s' more es := by
  cases t with
  | register ctx info =>
    simp only [exec] at h
    split at h
    · cases h
      exact .quiet s.nextId rfl (quiet_singleton trivial)
    · split at h
      · cases h
        exact .quiet (s.nextId + 1) rfl quiet_nil
      · cases h
        exact .quiet s.nextId rfl quiet_nil
  | entry info =>
    simp only [exec] at h
    split at h
    · cases h
      exact .quiet s.nextId rfl (quiet_singleton trivial)
    · cases h
      exact .opened info _ rfl
  | unregister id =>
    simp only [exec] at h
    split at h
    · cases h
      exact .quiet s.nextId rfl (quiet_singleton trivial)
    · rename_i record hget
      cases h
      exact .taken id hget rfl quiet_nil
  | emitClosed record =>
    cases h
    exact .closed .normal rfl (quiet_singleton trivial)
  | lookup ctx id reason =>
    simp only [exec] at h
    split at h
    · cases h
      exact .quiet s.nextId rfl quiet_nil
    · split at h
      · cases h
        exact .quiet s.nextId rfl quiet_nil
      · cases h
        exact .quiet s.nextId rfl (quiet_singleton trivial)
  | remove ctx id reason key =>
    simp only [exec] at h
    split at h
    · cases h
      exact .quiet s.nextId rfl (quiet_singleton trivial)
    · rename_i record hget
      cases h
      exact .taken id hget rfl (quiet_singleton trivial)
  | close record reason =>
    simp only [exec] at h
    split at h
    · cases h
      exact .failed rfl (quiet_singleton trivial)
    · cases h
      exact .closed reason rfl (quiet_singleton trivial)
  | authorize ctx key reason order =>
    simp only [exec] at h
    split at h
    · cases h
      exact .quiet s.nextId rfl quiet_nil
    · cases h
      exact .quiet s.nextId rfl (quiet_singleton trivial)
  | scan ctx key reason order ids =>
    cases order with
    | nil =>
      cases h
      exact .quiet s.nextId rfl quiet_nil
    | cons id order =>
      cases h
      exact .quiet s.nextId rfl quiet_nil
  | removeAll ctx key reason ids records =>
    cases ids with
    | nil =>
      cases h
      exact .quiet s.nextId (List.append_nil records) quiet_nil
    | cons id ids =>
      simp only [exec] at h
      split at h
      · cases h
        exact .quiet s.nextId (List.append_nil records) quiet_nil
      · rename_i record hget
        cases h
        exact .taken id hget (List.append_nil _) quiet_nil
  | callAll ctx key reason records closed =>
    cases records with
    | nil =>
      cases h
      exact .quiet s.nextId rfl (quiet_singleton trivial)
    | cons record records =>
      cases h
      exact .quiet s.nextId (List.append_nil _) (quiet_singleton trivial)
  | closeAll ctx key reason record records closed =>
    simp only [exec] at h
    split at h
    · cases h
      exact .closed reason (by simp [Task.held]) quiet_nil
    · cases h
      exact .failed (by simp [Task.held]) quiet_nil

end Effect

section Accounting
variable {s s' : Inner} {t : Task} {more : List Task} {es : List Event} {record : Record}
  {id : String}

theorem among_erase (hget : s.get id = some record) (h : Nat) :
    among h (s.erase id).sessions + (if record.closeHandle = h then 1 else 0) =
      among h s.sessions := by
  obtain ⟨hfound, before, after, hsplit, hbefore⟩ := List.find?_eq_some_iff_append.mp hget
  have hnone : ∀ r ∈ before, ¬(r.info.sessionId == id) = true := by
    intro r hr
    simpa using hbefore r hr
  have herase : (s.erase id).sessions = before ++ after := by
    rw [Inner.erase, hsplit]
    dsimp only
    rw [List.eraseP_append_right _ hnone]
    exact congrArg (before ++ ·) (List.eraseP_cons_of_pos hfound)
  rw [herase, hsplit]
  simp only [among, List.countP_append, List.countP_cons, beq_iff_eq]
  omega

theorem among_opened (s : Inner) (info : SessionInfo) (h : Nat) :
    among h (s.sessions ++ [⟨info, s.nextHandle⟩]) =
      among h s.sessions + if s.nextHandle = h then 1 else 0 := by
  simp [among, List.countP_append]

theorem given_opened (s : Inner) (sessions : List Record) (h : Nat) :
    given { s with sessions, nextHandle := s.nextHandle + 1 } h =
      given s h + if s.nextHandle = h then 1 else 0 := by
  unfold given
  dsimp only
  split_ifs <;> omega

/-- Every handle that was given out stands for at most one record of the map. -/
def Single (s : Inner) : Prop := ∀ h, among h s.sessions ≤ given s h

theorem Effect.single (heffect : Effect t s s' more es) (h : Single s) : Single s' := by
  cases heffect with
  | quiet nextId hheld hes => exact h
  | opened info answer hheld =>
    intro i
    have hi := h i
    rw [given_opened, among_opened]
    omega
  | taken id hget hheld hes =>
    intro i
    have hi := h i
    have herase := among_erase hget i
    have hgiven : given (s.erase id) i = given s i := rfl
    omega
  | closed reason hheld hes => exact h
  | failed hheld hes => exact h

theorem keeps_single (handles : CloseHandles) :
    Workers.Keeps start (exec handles) (fun _ => True) Single (fun _ _ => True) where
  step _ _ _ _ _ _ := trivial
  call _ _ _ _ _ := trivial
  exec _ _ _ _ _ _ _ hsingle _ hexec :=
    ⟨(exec_effect hexec).single hsingle, fun _ _ => trivial, fun _ _ => trivial⟩

/-- What a caller holds of a handle. -/
def Task.weight (h : Nat) (t : Task) : Nat := among h t.held

def one (p : Event → Bool) (e : Event) : Nat := if p e then 1 else 0

theorem sum_one (p : Event → Bool) (es : List Event) : (es.map (one p)).sum = es.countP p := by
  induction es with
  | nil => rfl
  | cons e es ih =>
    rw [List.map_cons, List.sum_cons, ih, List.countP_cons, one]
    omega

theorem sum_weight (h : Nat) (more : List Task) :
    (more.map (Task.weight h)).sum = among h (more.flatMap Task.held) := by
  rw [among, List.countP_flatMap]
  rfl

theorem countP_quiet (hes : ∀ e ∈ es, e.Quiet) (h : Nat) :
    es.countP (Event.opens h) = 0 ∧ es.countP (Event.ends h) = 0 := by
  constructor
  all_goals
    refine List.countP_eq_zero.mpr fun e he => ?_
    have hquiet := hes e he
    cases e with
    | closeCalled ctx record | returned answer => exact Bool.false_ne_true
    | sessionOpened record | sessionClosed record reason | closeFailed record => cases hquiet

/-- A session is opened when its handle is given out. -/
theorem Effect.opened_eq (heffect : Effect t s s' more es) (h : Nat) :
    (es.map (one (Event.opens h))).sum + given s h = given s' h := by
  rw [sum_one]
  cases heffect with
  | quiet nextId hheld hes =>
    rw [(countP_quiet hes h).1, Nat.zero_add]
    rfl
  | opened info answer hheld =>
    rw [given_opened]
    simp [List.countP_cons, Event.opens, Nat.add_comm]
  | taken id hget hheld hes =>
    rw [(countP_quiet hes h).1, Nat.zero_add]
    rfl
  | closed reason hheld hes =>
    simp [(countP_quiet hes h).1, Event.opens]
  | failed hheld hes =>
    simp [(countP_quiet hes h).1, Event.opens]

/-- A session that is taken out of the map is held until its closing is done. -/
theorem Effect.ended_eq (heffect : Effect t s s' more es) (hsingle : Single s) (h : Nat) :
    (es.map (one (Event.ends h))).sum + (more.map (Task.weight h)).sum +
        (given s h - among h s.sessions) =
      t.weight h + (given s' h - among h s'.sessions) := by
  have hle := hsingle h
  have hle' := heffect.single hsingle h
  rw [sum_one, sum_weight, Task.weight]
  cases heffect with
  | quiet nextId hheld hes =>
    rw [(countP_quiet hes h).2, hheld, Nat.zero_add]
    rfl
  | opened info answer hheld =>
    rw [hheld, given_opened, among_opened]
    have hnone : ([.sessionOpened ⟨info, s.nextHandle⟩, .returned answer] : List Event).countP
        (Event.ends h) = 0 := rfl
    have hheld : among h (List.flatMap Task.held []) = among h [] := rfl
    omega
  | taken id hget hheld hes =>
    have herase := among_erase hget h
    have hgiven : given (s.erase id) h = given s h := rfl
    rw [(countP_quiet hes h).2, hheld]
    simp only [among, List.countP_append, List.countP_singleton, beq_iff_eq] at *
    omega
  | @closed _ _ record reason hheld hes =>
    have hends := (countP_quiet hes h).2
    cases hmine : record.closeHandle == h
    all_goals
      simp only [List.countP_cons, hends, hheld, among, Event.ends, hmine, Bool.false_eq_true,
        if_false, if_true]
      omega
  | @failed _ _ record hheld hes =>
    have hends := (countP_quiet hes h).2
    cases hmine : record.closeHandle == h
    all_goals
      simp only [List.countP_cons, hends, hheld, among, Event.ends, hmine, Bool.false_eq_true,
        if_false, if_true]
      omega

end Accounting

section Permission
variable {handles : CloseHandles} {s s' : Inner} {t : Task} {more : List Task} {es : List Event}

/-- What a close finds under an id still has the media key its permission was checked for, and
no close handle fails. -/
def Calm (handles : CloseHandles) : Task → Inner → Prop
  | .remove _ id _ key, s => ∀ record ∈ s.get id, key = some record.info.mediaKey
  | .removeAll _ key _ (id :: _) _, s => ∀ record ∈ s.get id, record.info.mediaKey = key
  | .close record _, _ | .closeAll _ _ _ record _ _, _ =>
    (handles record.closeHandle).isSome = true
  | _, _ => True

instance (handles : CloseHandles) (t : Task) (s : Inner) : Decidable (Calm handles t s) := by
  unfold Calm
  split <;> infer_instance

/-- The caller has the permission for what it is about to close. -/
def Task.Permitted : Task → Prop
  | .remove ctx _ _ key => ∀ k ∈ key, authorized ctx .mediaControl (some k) = true
  | .scan ctx key _ _ _ => authorized ctx .mediaControl (some key) = true
  | .removeAll ctx key _ _ handles | .callAll ctx key _ handles _
  | .closeAll ctx key _ _ handles _ => authorized ctx .mediaControl (some key) = true ∧
      ∀ record ∈ handles, record.info.mediaKey = key
  | _ => True

def Event.Permitted : Event → Prop
  | .closeCalled ctx record =>
    authorized ctx .mediaControl (some record.info.mediaKey) = true
  | .closeFailed _ => False
  | _ => True

theorem exec_permitted (hcalm : Calm handles t s) (ht : t.Permitted)
    (h : exec handles t s = some (s', more, es)) :
    (∀ t' ∈ more, t'.Permitted) ∧ ∀ e ∈ es, e.Permitted := by
  cases t with
  | register ctx info =>
    simp only [exec] at h
    repeat' split at h
    all_goals
      cases h
      simp [Task.Permitted, Event.Permitted]
  | entry info | unregister id =>
    simp only [exec] at h
    split at h
    all_goals
      cases h
      simp [Task.Permitted, Event.Permitted]
  | emitClosed record =>
    cases h
    simp [Event.Permitted]
  | lookup ctx id reason =>
    simp only [exec] at h
    split at h
    · cases h
      simp [Task.Permitted]
    · split at h
      · rename_i hauthorized
        cases h
        simpa [Task.Permitted] using hauthorized
      · cases h
        simp [Event.Permitted]
  | remove ctx id reason key =>
    simp only [exec] at h
    split at h
    · cases h
      simp [Event.Permitted]
    · rename_i record hget
      cases h
      have hauthorized := ht record.info.mediaKey (hcalm record hget)
      simpa [Task.Permitted, Event.Permitted] using hauthorized
  | close record reason =>
    simp only [exec] at h
    split at h
    · rename_i hfails
      simp [Calm, hfails] at hcalm
    · cases h
      simp [Event.Permitted]
  | authorize ctx key reason order =>
    simp only [exec] at h
    split at h
    · rename_i hauthorized
      cases h
      simpa [Task.Permitted] using hauthorized
    · cases h
      simp [Event.Permitted]
  | scan ctx key reason order ids =>
    cases order with
    | nil =>
      cases h
      simpa [Task.Permitted] using ht
    | cons id order =>
      cases h
      simpa [Task.Permitted] using ht
  | removeAll ctx key reason ids records =>
    cases ids with
    | nil =>
      cases h
      simpa [Task.Permitted] using ht
    | cons id ids =>
      simp only [exec] at h
      split at h
      · cases h
        simpa [Task.Permitted] using ht
      · rename_i record hget
        cases h
        refine ⟨fun t' ht' => ?_, by simp⟩
        cases List.mem_singleton.mp ht'
        refine ⟨ht.1, fun r hr => ?_⟩
        rcases List.mem_append.mp hr with hr | hr
        · exact ht.2 r hr
        · cases List.mem_singleton.mp hr
          exact hcalm record hget
  | callAll ctx key reason records closed =>
    cases records with
    | nil =>
      cases h
      simp [Event.Permitted]
    | cons record records =>
      cases h
      obtain ⟨hauthorized, hkeys⟩ := ht
      obtain ⟨hkey, hkeys⟩ := List.forall_mem_cons.mp hkeys
      simpa [Task.Permitted, Event.Permitted, hkey, hauthorized] using hkeys
  | closeAll ctx key reason record records closed =>
    simp only [exec] at h
    split at h
    · cases h
      simpa [Task.Permitted, Event.Permitted] using ht
    · rename_i hfails
      simp [Calm, hfails] at hcalm

theorem start_permitted (c : Call) : ∀ t ∈ start c, t.Permitted := by
  cases c <;> simp [start, Task.Permitted]

theorem keeps_permitted (handles : CloseHandles) :
    Workers.Keeps start (Workers.guarded (Calm handles) (exec handles)) (fun _ => True)
      (fun _ => True) (fun _ => Task.Permitted) where
  step _ _ _ _ _ _ := trivial
  call _ c _ := start_permitted c
  exec _ _ _ _ _ _ _ _ ht hexec := by
    obtain ⟨hcalm, hexec⟩ := Workers.guarded_eq hexec
    exact ⟨trivial, (exec_permitted hcalm ht hexec).1, fun _ h => h⟩

end Permission

section Notified
variable {handles : CloseHandles} {s : Workers.State Inner Task} {es : List (Nat × Event)}

/-- A caller is in the middle of closing the session. -/
def UnderWay (s : Workers.State Inner Task) (h : Nat) : Prop :=
  ∃ t, Workers.Left s t ∧ ∃ record ∈ t.held, record.closeHandle = h

theorem countP_snd (p : Event → Bool) (es : List (Nat × Event)) :
    (es.map fun e => one p e.2).sum = es.countP fun e => p e.2 := by
  rw [← Function.comp_def (one p) Prod.snd, ← List.map_map, sum_one, List.countP_map]
  rfl

theorem opened_run (hrun : Transition.run (step handles) (Workers.idle {} n) as = some (s, es))
    (h : Nat) : (es.countP fun e => e.2.opens h) = given s.shared h := by
  have hsum := (keeps_single handles).run_weight (one (Event.opens h)) (fun _ => 0) (given · h)
    (fun c => by cases c <;> rfl)
    (fun s t s' more es _ _ hexec => by
      have heq := (exec_effect hexec).opened_eq h
      have hzero : (more.map fun _ => 0).sum = 0 := by simp
      omega)
    (Workers.kept_idle n trivial fun h => Nat.zero_le _) hrun
  have hnone : Workers.weight (fun _ : Task => 0) s = 0 := by simp [Workers.weight]
  have hidle : given (Workers.idle ({} : Inner) n : Workers.State Inner Task).shared h = 0 := rfl
  rw [countP_snd, hnone, hidle, Workers.weight_idle] at hsum
  omega

/-- Every session is in the map, in the hands of a caller that closes it, or has ended. -/
theorem ended_run (hrun : Transition.run (step handles) (Workers.idle {} n) as = some (s, es))
    (h : Nat) : (es.countP fun e => e.2.ends h) + Workers.weight (Task.weight h) s +
      among h s.shared.sessions = given s.shared h := by
  have hkept : Workers.Kept (fun _ => True) Single (fun _ (_ : Task) => True)
      (Workers.idle {} n) := Workers.kept_idle n trivial fun h => Nat.zero_le _
  have hsingle := ((keeps_single handles).run hkept hrun).inv h
  have hsum := (keeps_single handles).run_weight (one (Event.ends h)) (Task.weight h)
    (fun s => given s h - among h s.sessions) (fun c => by cases c <;> rfl)
    (fun s t s' more es hkept _ hexec => (exec_effect hexec).ended_eq hkept.inv h) hkept hrun
  have hidle : given (Workers.idle ({} : Inner) n : Workers.State Inner Task).shared h = 0 := rfl
  rw [countP_snd, hidle, Workers.weight_idle] at hsum
  omega

theorem permitted_run
    (hcalm : Transition.Along (step handles) (Workers.Allowed (Calm handles))
      (Workers.idle {} n) as)
    (hrun : Transition.run (step handles) (Workers.idle {} n) as = some (s, es)) :
    ∀ e ∈ es, e.2.Permitted :=
  (keeps_permitted handles).run_seen (fun _ => Event.Permitted)
    (fun _ _ _ _ _ hkept hleft hexec => by
      obtain ⟨hcalm, hexec⟩ := Workers.guarded_eq hexec
      exact ⟨fun _ h => h, (exec_permitted hcalm (hkept.fit _ hleft) hexec).2⟩)
    (Workers.kept_idle n trivial trivial) (Workers.run_guarded hcalm hrun)

/-- Where no close handle fails and a close finds under an id what its permission was checked
for, every registered session is reported open once, a session is reported closed once when it
is gone and not before, and no one closes a session without the permission. -/
theorem sessions_notified
    (hcalm : Transition.Along (step handles) (Workers.Allowed (Calm handles))
      (Workers.idle {} n) as)
    (hrun : Transition.run (step handles) (Workers.idle {} n) as = some (s, es)) :
    (∀ h, (es.countP fun e => e.2.opens h) = if h < s.shared.nextHandle then 1 else 0) ∧
    (∀ record ∈ s.shared.sessions, (es.countP fun e => e.2.closes record.closeHandle) = 0) ∧
    (∀ h < s.shared.nextHandle, (∀ record ∈ s.shared.sessions, record.closeHandle ≠ h) →
      ¬UnderWay s h → (es.countP fun e => e.2.closes h) = 1) ∧
    ∀ i ctx record, (i, .closeCalled ctx record) ∈ es →
      authorized ctx .mediaControl (some record.info.mediaKey) = true := by
  have hpermitted := permitted_run hcalm hrun
  have hcloses : ∀ h, (es.countP fun e => e.2.closes h) = es.countP fun e => e.2.ends h := by
    intro h
    refine List.countP_congr fun e he => ?_
    have he := hpermitted e he
    obtain ⟨i, e⟩ := e
    cases e with
    | closeFailed record => exact he.elim
    | _ => rfl
  refine ⟨opened_run hrun, fun record hrecord => ?_, fun h hgiven hgone hidle => ?_,
    fun i ctx record he => hpermitted _ he⟩
  · have hended := ended_run hrun record.closeHandle
    have hpos : 0 < among record.closeHandle s.shared.sessions :=
      List.countP_pos_iff.mpr ⟨record, hrecord, beq_self_eq_true _⟩
    have hle : given s.shared record.closeHandle ≤ 1 := by
      unfold given
      split <;> omega
    rw [hcloses]
    omega
  · have hended := ended_run hrun h
    have hmap : among h s.shared.sessions = 0 := by
      refine List.countP_eq_zero.mpr fun record hrecord => ?_
      simpa using hgone record hrecord
    have hnone : Workers.weight (Task.weight h) s = 0 := by
      refine Workers.weight_eq_zero _ fun t ht => List.countP_eq_zero.mpr fun record hrecord => ?_
      rw [beq_iff_eq]
      exact fun hmine => hidle ⟨t, ht, record, hrecord, hmine⟩
    have hone : given s.shared h = 1 := if_pos hgiven
    rw [hcloses]
    omega

def cameraKey : MediaKey := ⟨"__defaultVhost__", "live", "camera", none⟩

def vaultKey : MediaKey := ⟨"__defaultVhost__", "live", "vault", none⟩

/-- A caller that may control the camera and nothing else. -/
def cameraAdmin : MediaRequestContext where
  principal := some
    { resourceGrants := [⟨{ stream := .exact "camera" }, [.mediaControl]⟩] }

/-- A session is registered and closed. -/
def registerAndClose : List (Workers.Action Call) :=
  [.call 0 (.registerSession {} { sessionId := "a", mediaKey := cameraKey }), .advance 0,
    .advance 0, .call 0 (.closeSession {} "a" .kicked), .advance 0, .advance 0, .advance 0]

theorem sessions_notified_closed : ∃ s es,
    Transition.run (step fun _ => some "closed") (Workers.idle {} 1) registerAndClose =
      some (s, es) ∧ (es.countP fun e => e.2.opens 0) = 1 := by
  obtain ⟨⟨s, es⟩, hrun⟩ : ∃ r, Transition.run (step fun _ => some "closed") (Workers.idle {} 1)
      registerAndClose = some r := ⟨_, rfl⟩
  have hgiven : ∀ r ∈ Transition.run (step fun _ => some "closed") (Workers.idle {} 1)
      registerAndClose, 0 < r.1.shared.nextHandle := by
    decide +kernel
  refine ⟨s, es, hrun, ?_⟩
  rw [(sessions_notified (by decide +kernel) hrun).1 0, if_pos (hgiven _ hrun)]

/-- While a caller stands between the look-up and the removal, the session is unregistered and
another one is registered under its id. -/
def closeReused : List (Workers.Action Call) :=
  [.call 1 (.registerSession {} { sessionId := "a", mediaKey := cameraKey }), .advance 1,
    .advance 1, .call 0 (.closeSession cameraAdmin "a" .kicked), .advance 0,
    .call 1 (.unregisterSession "a"), .advance 1, .advance 1,
    .call 1 (.registerSession {} { sessionId := "a", mediaKey := vaultKey }), .advance 1,
    .advance 1, .advance 0]

/-- A session whose close handle fails is gone and never reported closed; and a caller without
the permission closes a session. -/
theorem session_lost :
    (Transition.run (step fun _ => none) (Workers.idle {} 1) registerAndClose).map
        (fun r => (r.1.shared.sessions, r.1.work, r.2.countP fun e => e.2.opens 0,
          r.2.countP fun e => e.2.closes 0)) =
      some ([], [[]], 1, 0) ∧
    (Transition.run (step fun _ => some "closed") (Workers.idle {} 2) closeReused).map
        (fun r => decide ((0, .closeCalled cameraAdmin
          ⟨{ sessionId := "a", mediaKey := vaultKey }, 1⟩) ∈ r.2)) = some true ∧
    authorized cameraAdmin .mediaControl (some vaultKey) = false := by
  decide +kernel

end Notified

end SessionDirectory
end CheetahMedia.Engine
