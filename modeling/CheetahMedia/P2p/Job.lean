namespace CheetahMedia.P2p

structure PendingCandidate where
  candidate : String
  sdpMid : Option String
  sdpMlineIndex : Option UInt32

/-- Result of a push. -/
inductive PushOutcome
  | buffered
  | duplicate
  | evicted (dropped : PendingCandidate)
  | closed

inductive BufferState
  | awaitingAnswer | open | closed
deriving DecidableEq

/-- Candidates in the order they came, and the strings that count as seen. -/
structure PendingCandidateBuffer where
  queue : List PendingCandidate
  seen : List String
  state : BufferState
  cap : Nat
  cap_pos : 0 < cap

def PENDING_CANDIDATE_DEFAULT_CAP : Nat := 32

namespace PendingCandidateBuffer

/-- A buffer of cap 0 is refused. -/
def new (cap : Nat) : Option PendingCandidateBuffer :=
  if h : 0 < cap then some { queue := [], seen := [], state := .awaitingAnswer, cap, cap_pos := h }
  else none

def push (b : PendingCandidateBuffer) (candidate : PendingCandidate) :
    PendingCandidateBuffer × PushOutcome :=
  if b.state = .closed then (b, .closed)
  else if candidate.candidate ∈ b.seen then (b, .duplicate)
  else
    let seen := candidate.candidate :: b.seen
    match b.queue with
    | ev :: rest =>
      if b.cap ≤ b.queue.length then
        ({ b with queue := rest ++ [candidate], seen := seen.filter (· ≠ ev.candidate) }, .evicted ev)
      else ({ b with queue := b.queue ++ [candidate], seen }, .buffered)
    | [] => ({ b with queue := [candidate], seen }, .buffered)

/-- Marks the answer as applied and hands over what waits. -/
def flush (b : PendingCandidateBuffer) : PendingCandidateBuffer × List PendingCandidate :=
  if b.state = .closed then (b, [])
  else ({ b with state := .open, queue := [] }, b.queue)

def close (b : PendingCandidateBuffer) : PendingCandidateBuffer :=
  { b with state := .closed, queue := [], seen := [] }

/-- The push takes the candidate in. -/
def Accepts (b : PendingCandidateBuffer) (candidate : PendingCandidate) : Prop :=
  b.state ≠ .closed ∧ candidate.candidate ∉ b.seen

variable {b : PendingCandidateBuffer} {candidate : PendingCandidate}

instance : Decidable (b.Accepts candidate) := inferInstanceAs (Decidable (_ ∧ _))

/-- What goes out at the front to make room. -/
def drops (b : PendingCandidateBuffer) : List PendingCandidate :=
  if b.cap ≤ b.queue.length then b.queue.take 1 else []

theorem push_refused (h : ¬b.Accepts candidate) :
    (b.push candidate).1 = b ∧
      (b.push candidate).2 = if b.state = .closed then .closed else .duplicate := by
  unfold push
  split
  · exact ⟨rfl, rfl⟩
  · rename_i hopen
    have hseen : candidate.candidate ∈ b.seen := Decidable.not_not.mp fun hseen => h ⟨hopen, hseen⟩
    rw [if_pos hseen]
    exact ⟨rfl, rfl⟩

/-- Everything that an accepted push does. -/
theorem push_accepted (h : b.Accepts candidate) :
    (b.push candidate).1 = { b with
      queue := b.queue.drop b.drops.length ++ [candidate]
      seen := (candidate.candidate :: b.seen).filter (· ∉ b.drops.map (·.candidate)) } ∧
    (b.push candidate).2 = (match b.drops with
      | ev :: _ => .evicted ev
      | [] => .buffered) := by
  have hall : b.seen.filter (fun _ => true) = b.seen := List.filter_eq_self.mpr fun _ _ => rfl
  unfold push drops
  rw [if_neg h.1, if_neg h.2]
  cases hqueue : b.queue with
  | nil =>
    have hroom : ¬b.cap ≤ 0 := Nat.not_le.mpr b.cap_pos
    simp [hroom, hall]
  | cons ev rest =>
    dsimp only
    split <;> simp [hall]

theorem drops_append : b.drops ++ b.queue.drop b.drops.length = b.queue := by
  have hprefix : b.drops <+: b.queue := by
    unfold drops
    split
    · exact List.take_prefix ..
    · exact List.nil_prefix
  obtain ⟨rest, hrest⟩ := hprefix
  rw [← hrest, List.drop_left]

/-- A queue within the cap stays within it. -/
theorem drops_length (h : b.queue.length ≤ b.cap) :
    (b.queue.drop b.drops.length).length + 1 ≤ b.cap := by
  have hcap := b.cap_pos
  have hqueue := congrArg List.length (drops_append (b := b))
  rw [List.length_append] at hqueue
  unfold drops at hqueue ⊢
  split
  · rename_i hfull
    rw [if_pos hfull, List.length_take] at hqueue
    rw [List.length_take] at *
    omega
  · rw [List.length_nil, List.drop_zero]
    omega

end PendingCandidateBuffer
end CheetahMedia.P2p

namespace CheetahMedia.P2p

inductive P2pDirection
  | pull | push | p2p

structure P2pStreamTuple where
  vhost : String := ""
  app : String := ""
  stream : String := ""

structure P2pMessageHeader where
  roomId : Option String := none
  peerId : Option String := none
  transportId : Option String := none

/-- The messages that a job builds. -/
inductive P2pMessage
  | checkIn (header : P2pMessageHeader) (direction : P2pDirection) (stream : P2pStreamTuple)
      (sdp : Option String)
  | bye (header : P2pMessageHeader) (reason : Option String)

/-- Drives the direction in the offer. -/
inductive P2pJobKind
  | pull | push

def P2pJobKind.direction : P2pJobKind → P2pDirection
  | .pull => .pull
  | .push => .push

inductive P2pJobState
  | pending | offering | awaitingAnswer | connected | bye | failed
deriving DecidableEq

def P2pJobState.Ended (s : P2pJobState) : Prop := s = .bye ∨ s = .failed

instance : Decidable (P2pJobState.Ended s) := inferInstanceAs (Decidable (_ ∨ _))

inductive P2pJobError
  | invalidTransition (what : String) (state : P2pJobState)

/-- Inputs the runner feeds the state machine. -/
inductive P2pJobInput
  | localOfferReady (sdp : String)
  | remoteAnswer (sdp : String)
  | remoteCandidate (candidate : PendingCandidate)
  | driverConnected
  | localBye (reason : Option String)
  | remoteBye (reason : Option String)
  | transportError (reason : String)

/-- Side effects the runner must perform. -/
inductive P2pJobAction
  | sendCheckIn (message : P2pMessage)
  | applyRemoteAnswer (sdp : String)
  | addRemoteCandidate (candidate : PendingCandidate)
  | sendBye (message : P2pMessage)
  | diagnostic (text : String)
  | fatal (reason : String)

structure P2pJobConfig where
  kind : P2pJobKind := .pull
  stream : P2pStreamTuple := {}
  localRoomId : String := ""
  peerRoomId : String := ""
  transportId : String := ""
  pendingCandidateCap : Nat := PENDING_CANDIDATE_DEFAULT_CAP

structure P2pJob where
  config : P2pJobConfig
  state : P2pJobState
  pending : PendingCandidateBuffer
  lastError : Option String

namespace P2pJob

/-- What an input leads to: the job after it, and its actions or an error. -/
abbrev Result := P2pJob × Except P2pJobError (List P2pJobAction)

def new (config : P2pJobConfig) : P2pJob where
  config
  state := .pending
  pending := {
    queue := [], seen := [], state := .awaitingAnswer
    cap := max config.pendingCandidateCap 1
    cap_pos := Nat.lt_of_lt_of_le Nat.zero_lt_one (Nat.le_max_right ..) }
  lastError := none

def header (j : P2pJob) : P2pMessageHeader where
  roomId := some j.config.peerRoomId
  peerId := some j.config.localRoomId
  transportId := some j.config.transportId

def invalid (j : P2pJob) (what : String) : Result := (j, .error (.invalidTransition what j.state))

def onLocalOffer (j : P2pJob) (sdp : String) : Result :=
  if j.state = .pending then
    ({ j with state := .awaitingAnswer },
      .ok [.sendCheckIn (.checkIn j.header j.config.kind.direction j.config.stream (some sdp))])
  else j.invalid "LocalOfferReady"

/-- The job waits on until the driver reports that it is connected. -/
def onRemoteAnswer (j : P2pJob) (sdp : String) : Result :=
  if j.state = .awaitingAnswer then
    let (pending, buffered) := j.pending.flush
    ({ j with pending }, .ok (.applyRemoteAnswer sdp :: buffered.map .addRemoteCandidate))
  else j.invalid "RemoteAnswer"

def onRemoteCandidate (j : P2pJob) (candidate : PendingCandidate) : Result :=
  if j.state.Ended then j.invalid "RemoteCandidate"
  else
    let (pending, outcome) := j.pending.push candidate
    let next := { j with pending }
    match outcome with
    | .buffered =>
      (next, .ok (if pending.state = .open then [.addRemoteCandidate candidate] else []))
    | .duplicate => (next, .ok [.diagnostic "duplicate remote candidate ignored"])
    | .evicted dropped =>
      (next, .ok (.diagnostic
          ("pending candidate buffer evicted oldest entry `" ++ dropped.candidate ++ "`") ::
        if pending.state = .open then [.addRemoteCandidate candidate] else []))
    | .closed => next.invalid "RemoteCandidate"

def onDriverConnected (j : P2pJob) : Result :=
  if j.state = .awaitingAnswer ∨ j.state = .connected then ({ j with state := .connected }, .ok [])
  else j.invalid "DriverConnected"

def onLocalBye (j : P2pJob) (reason : Option String) : Result :=
  if j.state.Ended then (j, .ok [])
  else ({ j with state := .bye, pending := j.pending.close }, .ok [.sendBye (.bye j.header reason)])

def onRemoteBye (j : P2pJob) (reason : Option String) : Result :=
  if j.state.Ended then (j, .ok [])
  else
    ({ j with state := .bye, pending := j.pending.close },
      .ok [.diagnostic ("remote sent bye: " ++ reason.getD "<no reason>")])

def onTransportError (j : P2pJob) (reason : String) : Result :=
  if j.state.Ended then (j, .ok [])
  else
    ({ j with lastError := some reason, state := .failed, pending := j.pending.close },
      .ok [.fatal reason])

def apply (j : P2pJob) : P2pJobInput → Result
  | .localOfferReady sdp => j.onLocalOffer sdp
  | .remoteAnswer sdp => j.onRemoteAnswer sdp
  | .remoteCandidate c => j.onRemoteCandidate c
  | .driverConnected => j.onDriverConnected
  | .localBye reason => j.onLocalBye reason
  | .remoteBye reason => j.onRemoteBye reason
  | .transportError reason => j.onTransportError reason

end P2pJob

end CheetahMedia.P2p
