import CheetahMedia.Engine.Dispatcher

namespace CheetahMedia.Engine.Gating
open Lib

/-- A bounded channel; it is closed when its receiver is dropped. -/
structure Channel where
  capacity : Nat
  queue : List AVFrame := []
  closed : Bool := false

namespace Channel

def outcome (c : Channel) : TrySend :=
  if c.closed then .closed else if c.queue.length < c.capacity then .ok else .full

/-- `try_send`: a frame that does not go in is lost. -/
def trySend (c : Channel) (frame : AVFrame) : Channel :=
  if c.outcome = .ok then { c with queue := c.queue ++ [frame] } else c

end Channel

/-- A subscriber with its flag and its channel, and what its consumer has read so far. -/
structure Subscriber where
  sub : DispatchSubscriber
  waiting : Bool := false
  channel : Channel
  received : List AVFrame := []
  /-- Whether it is still in the dispatcher's list. -/
  attached : Bool := true

inductive Event
  | delivered (id : Nat) (frame : AVFrame)
  /-- A frame that passes the filter and does not get into the channel. -/
  | dropped (id : Nat) (frame : AVFrame)

/-- The media filter lets the frame pass. -/
def wants (sub : DispatchSubscriber) (frame : AVFrame) : Bool :=
  !(!sub.mediaFilter.enableVideo && frame.mediaKind == .video) &&
    !(!sub.mediaFilter.enableAudio && frame.mediaKind == .audio)

/-- The loop comes as far as the send. -/
def sends (sub : DispatchSubscriber) (waiting : Bool) (frame : AVFrame) : Bool :=
  wants sub frame && !(sub.policy == .dropUntilNextKeyframe && waiting && !frame.key)

/-- What one round of the loop of `dispatch_frame` leaves of the subscriber it is about. -/
def Subscriber.visited (s : Subscriber) (frame : AVFrame) (waiting : Bool) : Subscriber :=
  { s with
    waiting
    channel := if sends s.sub s.waiting frame then s.channel.trySend frame else s.channel }

def Subscriber.events (s : Subscriber) (frame : AVFrame) : List Event :=
  if !wants s.sub frame then []
  else if sends s.sub s.waiting frame && s.channel.outcome == .ok then [.delivered s.sub.id frame]
  else [.dropped s.sub.id frame]

/-- The loop of `dispatch_frame` over the list. -/
def visitAll (frame : AVFrame) :
    List Subscriber → Dispatch → List Subscriber × Dispatch × List Event
  | [], d => ([], d, [])
  | s :: subs, d =>
    if s.attached then
      let (waiting, d) := d.visit frame s.sub s.channel.outcome s.waiting
      let (subs, d, es) := visitAll frame subs d
      (s.visited frame waiting :: subs, d, s.events frame ++ es)
    else
      let (subs, d, es) := visitAll frame subs d
      (s :: subs, d, es)

def removeSubscribers (ids : Finset Nat) (subs : List Subscriber) : List Subscriber :=
  subs.map fun s => { s with attached := s.attached && s.sub.id ∉ ids }

def dispatchFrame (subs : List Subscriber) (frame : AVFrame) :
    List Subscriber × DispatchResult × List Event :=
  if subs.all fun s => !s.attached then (subs, .rejectedClosed, [])
  else
    let (subs, d, es) := visitAll frame subs {}
    (removeSubscribers d.removeIds subs, d.result, es)

/-- Frames are dispatched, and each consumer reads when it likes or goes away. -/
inductive Action
  | dispatch (frame : AVFrame)
  | read (id : Nat)
  | close (id : Nat)

def Subscriber.read (s : Subscriber) : Subscriber :=
  match s.channel.queue with
  | [] => s
  | frame :: queue =>
    { s with channel := { s.channel with queue }, received := s.received ++ [frame] }

def onId (id : Nat) (f : Subscriber → Subscriber) (subs : List Subscriber) : List Subscriber :=
  subs.map fun s => if s.sub.id = id then f s else s

def step : Transition (List Subscriber) Action Event
  | subs, .dispatch frame =>
    let (subs, _, es) := dispatchFrame subs frame
    some (subs, es)
  | subs, .read id => some (onId id .read subs, [])
  | subs, .close id =>
    some (onId id (fun s => { s with channel := { s.channel with closed := true } }) subs, [])

def dispatched (actions : List Action) : List AVFrame :=
  actions.filterMap fun
    | .dispatch frame => some frame
    | _ => none

/-- The frames that the dispatcher had for a subscriber, each with whether it was delivered. -/
def logOf (id : Nat) (es : List Event) : List (AVFrame × Bool) :=
  es.filterMap fun
    | .delivered i frame => if i = id then some (frame, true) else none
    | .dropped i frame => if i = id then some (frame, false) else none

def delivered (log : List (AVFrame × Bool)) : List AVFrame :=
  (log.filter Prod.snd).map Prod.fst

/-- After a dropped frame the next delivered one is a key frame. -/
def GatedByKey (log : List (AVFrame × Bool)) : Prop :=
  ∀ before f between g after, log = before ++ (f, false) :: (between ++ (g, true) :: after) →
    (∀ e ∈ between, e.2 = false) → g.key = true

/-- A subscriber as `add_subscriber` leaves it. -/
structure Fresh (s : Subscriber) : Prop where
  waiting : s.waiting = false
  queue : s.channel.queue = []
  received : s.received = []
  attached : s.attached = true

instance (s : Subscriber) : Decidable (Fresh s) :=
  decidable_of_iff (s.waiting = false ∧ s.channel.queue = [] ∧ s.received = [] ∧ s.attached = true)
    ⟨fun h => ⟨h.1, h.2.1, h.2.2.1, h.2.2.2⟩, fun h => ⟨h.waiting, h.queue, h.received, h.attached⟩⟩

section Round

/-- The flag that a round leaves, whatever the loop gathered before it. -/
def Subscriber.flag (s : Subscriber) (frame : AVFrame) : Bool :=
  (Dispatch.visit frame s.sub s.channel.outcome s.waiting {}).1

def Subscriber.removed (s : Subscriber) (frame : AVFrame) : Bool :=
  s.sub.id ∈ (Dispatch.visit frame s.sub s.channel.outcome s.waiting {}).2.removeIds

theorem send_spec (frame : AVFrame) (sub : DispatchSubscriber) (outcome : TrySend) (waiting : Bool)
    (d : Dispatch) : (d.send frame sub waiting outcome).1 =
      (Dispatch.send frame sub waiting {} outcome).1 ∧
    (d.send frame sub waiting outcome).2.removeIds =
      d.removeIds ∪ (Dispatch.send frame sub waiting {} outcome).2.removeIds := by
  have hinsert : insert sub.id d.removeIds = d.removeIds ∪ insert sub.id ∅ := by
    ext i
    rw [Finset.mem_insert, Finset.mem_union, Finset.mem_insert, or_comm]
    simp only [Finset.notMem_empty, or_false]
  unfold Dispatch.send
  cases outcome with
  | ok => exact ⟨rfl, by simp⟩
  | closed => exact ⟨rfl, hinsert⟩
  | full =>
    cases sub.policy with
    | dropUntilNextKeyframe => exact ⟨rfl, by simp⟩
    | disconnectOnOverflow => exact ⟨rfl, hinsert⟩
    | dropDroppableFirst =>
      dsimp only
      split
      · exact ⟨rfl, by simp⟩
      · exact ⟨rfl, hinsert⟩

/-- A round does the same whatever was gathered, and adds what it removes. -/
theorem visit_spec (frame : AVFrame) (sub : DispatchSubscriber) (outcome : TrySend) (waiting : Bool)
    (d : Dispatch) : (d.visit frame sub outcome waiting).1 =
      (Dispatch.visit frame sub outcome waiting {}).1 ∧
    (d.visit frame sub outcome waiting).2.removeIds =
      d.removeIds ∪ (Dispatch.visit frame sub outcome waiting {}).2.removeIds := by
  unfold Dispatch.visit
  split
  · exact ⟨rfl, by simp⟩
  · split
    · exact ⟨rfl, by simp⟩
    · split
      · split
        · exact send_spec frame sub outcome false d
        · exact ⟨rfl, by simp⟩
      · exact send_spec frame sub outcome waiting d

/-- A round removes no one but the subscriber it is about. -/
theorem mem_visit_removeIds (h : i ∈ (Dispatch.visit frame sub outcome waiting {}).2.removeIds) :
    i = sub.id := by
  have hsend : ∀ waiting,
      i ∈ (Dispatch.send frame sub waiting {} outcome).2.removeIds → i = sub.id := by
    intro waiting hi
    unfold Dispatch.send at hi
    repeat' split at hi
    all_goals simp_all
  unfold Dispatch.visit at h
  split at h
  · simp at h
  · split at h
    · simp at h
    · split at h
      · split at h
        · exact hsend _ h
        · simp at h
      · exact hsend _ h

/-- The subscriber after a dispatch, by itself. -/
def Subscriber.next (s : Subscriber) (frame : AVFrame) : Subscriber :=
  if s.attached then { s.visited frame (s.flag frame) with attached := !s.removed frame } else s

/-- What can become of a frame and of the subscriber it is offered to. -/
inductive Visit (s : Subscriber) (frame : AVFrame) : Subscriber → List Event → Prop
  | skipped (hwants : wants s.sub frame = false) : Visit s frame s []
  | delivered (waiting : Bool) (hwants : wants s.sub frame = true)
    (hgate : s.sub.policy = .dropUntilNextKeyframe → s.waiting = true → frame.key = true) :
    Visit s frame
      { s with waiting, channel := { s.channel with queue := s.channel.queue ++ [frame] } }
      [.delivered s.sub.id frame]
  | kept (waiting : Bool) (hwants : wants s.sub frame = true)
    (hwaiting : s.sub.policy = .dropUntilNextKeyframe → waiting = true)
    (hdroppable : s.sub.policy = .dropDroppableFirst → frame.key = true → frame.droppable = true)
    (hpolicy : s.sub.policy ≠ .disconnectOnOverflow) :
    Visit s frame { s with waiting } [.dropped s.sub.id frame]
  | removed (waiting : Bool) (hwants : wants s.sub frame = true)
    (hwhy : s.channel.closed = true ∨ s.sub.policy = .disconnectOnOverflow ∨
      s.sub.policy = .dropDroppableFirst ∧ frame.key = true ∧ frame.droppable = false) :
    Visit s frame { s with waiting, attached := false } [.dropped s.sub.id frame]

/-- A frame that is not wanted, or that the gate stops, comes to no send. -/
theorem visit_unsent (outcome : TrySend) (h : sends sub waiting frame = false) :
    (Dispatch.visit frame sub outcome waiting {}).1 = waiting ∧
      (Dispatch.visit frame sub outcome waiting {}).2.removeIds = ∅ := by
  unfold Dispatch.visit
  unfold sends wants at h
  split
  · exact ⟨rfl, rfl⟩
  · split
    · exact ⟨rfl, rfl⟩
    · split
      · split
        · simp_all
        · exact ⟨rfl, rfl⟩
      · simp_all

/-- The flag is down when a frame is sent. -/
def lowered (sub : DispatchSubscriber) (waiting : Bool) : Bool :=
  if sub.policy = .dropUntilNextKeyframe then false else waiting

theorem visit_sent (outcome : TrySend) (h : sends sub waiting frame = true) :
    Dispatch.visit frame sub outcome waiting {} =
      Dispatch.send frame sub (lowered sub waiting) {} outcome := by
  unfold Dispatch.visit lowered
  unfold sends wants at h
  simp only [Bool.and_eq_true, Bool.not_eq_true'] at h
  obtain ⟨⟨hvideo, haudio⟩, hgate⟩ := h
  rw [hvideo, haudio]
  simp only [Bool.false_eq_true, if_false]
  split
  · rename_i hwaiting
    simp_all
  · cases waiting <;> simp_all

theorem next_eq {s : Subscriber} (waiting removed : Bool) (h : s.attached = true)
    (hflag : s.flag frame = waiting) (hremoved : s.removed frame = removed) : s.next frame =
      { s with
        waiting
        channel := if sends s.sub s.waiting frame then s.channel.trySend frame else s.channel
        attached := s.attached && !removed } := by
  rw [Subscriber.next, if_pos h, hflag, hremoved, h]
  rfl

theorem visit_next_unsent {s : Subscriber} (h : s.attached = true)
    (hsends : sends s.sub s.waiting frame = false) :
    Visit s frame (s.next frame) (s.events frame) := by
  obtain ⟨hflag, hids⟩ := visit_unsent s.channel.outcome hsends
  have hsame : s.next frame = s := by
    rw [next_eq s.waiting false h hflag (by rw [Subscriber.removed, hids]; rfl), hsends,
      Bool.not_false, Bool.and_true]
    rfl
  rw [hsame]
  cases hwants : wants s.sub frame with
  | false =>
    have hevents : s.events frame = [] := by simp [Subscriber.events, hwants]
    rw [hevents]
    exact .skipped hwants
  | true =>
    have hevents : s.events frame = [.dropped s.sub.id frame] := by
      simp [Subscriber.events, hwants, hsends]
    simp only [sends, hwants, Bool.true_and, Bool.not_eq_false', Bool.and_eq_true, beq_iff_eq]
      at hsends
    obtain ⟨⟨hpolicy, hwaiting⟩, -⟩ := hsends
    rw [hevents]
    exact .kept s.waiting hwants (fun _ => hwaiting) (by simp [hpolicy]) (by simp [hpolicy])

/-- What a send that fails leaves of the subscriber. -/
theorem next_lost {s : Subscriber} (waiting removed : Bool) (h : s.attached = true)
    (hsends : sends s.sub s.waiting frame = true) (hlost : s.channel.outcome ≠ .ok)
    (hflag : (Dispatch.send frame s.sub (lowered s.sub s.waiting) {} s.channel.outcome).1 = waiting)
    (hremoved : decide (s.sub.id ∈
      (Dispatch.send frame s.sub (lowered s.sub s.waiting) {} s.channel.outcome).2.removeIds) =
        removed) :
    s.next frame = { s with waiting, attached := s.attached && !removed } ∧
      s.events frame = [.dropped s.sub.id frame] := by
  have hvisit := visit_sent s.channel.outcome hsends
  have hchannel : s.channel.trySend frame = s.channel := by rw [Channel.trySend, if_neg hlost]
  refine ⟨?_, by simp [Subscriber.events, (Bool.and_eq_true_iff.mp hsends).1, hlost]⟩
  rw [next_eq waiting removed h (by rw [Subscriber.flag, hvisit, hflag])
    (by rw [Subscriber.removed, hvisit, hremoved]), hsends, if_pos rfl, hchannel]

theorem visit_delivered {s : Subscriber} (h : s.attached = true)
    (hsends : sends s.sub s.waiting frame = true) (houtcome : s.channel.outcome = .ok) :
    Visit s frame (s.next frame) (s.events frame) := by
  obtain ⟨hwants, hgate⟩ := Bool.and_eq_true_iff.mp hsends
  have hevents : s.events frame = [.delivered s.sub.id frame] := by
    simp [Subscriber.events, hwants, hsends, houtcome]
  have hvisit := visit_sent s.channel.outcome hsends
  have hnext := next_eq (lowered s.sub s.waiting) false h
    (by rw [Subscriber.flag, hvisit, houtcome]; rfl)
    (by rw [Subscriber.removed, hvisit, houtcome]; rfl)
  rw [hsends, if_pos rfl, Channel.trySend, if_pos houtcome, Bool.not_false, Bool.and_true] at hnext
  rw [hevents, hnext]
  refine .delivered _ hwants fun hpolicy hwaiting => ?_
  simpa [hpolicy, hwaiting] using hgate

/-- A full queue: what becomes of the frame is up to the policy. -/
theorem visit_full {s : Subscriber} (h : s.attached = true)
    (hsends : sends s.sub s.waiting frame = true) (houtcome : s.channel.outcome = .full) :
    Visit s frame (s.next frame) (s.events frame) := by
  have hwants := (Bool.and_eq_true_iff.mp hsends).1
  have hlost : s.channel.outcome ≠ .ok := by simp [houtcome]
  cases hpolicy : s.sub.policy with
  | dropUntilNextKeyframe =>
    obtain ⟨hnext, hevents⟩ := next_lost true false h hsends hlost
      (by simp [houtcome, Dispatch.send, hpolicy]) (by simp [houtcome, Dispatch.send, hpolicy])
    rw [hnext, hevents, Bool.not_false, Bool.and_true]
    exact .kept true hwants (fun _ => rfl) (by simp [hpolicy]) (by simp [hpolicy])
  | disconnectOnOverflow =>
    obtain ⟨hnext, hevents⟩ := next_lost s.waiting true h hsends hlost
      (by simp [houtcome, Dispatch.send, hpolicy, lowered])
      (by simp [houtcome, Dispatch.send, hpolicy])
    rw [hnext, hevents, Bool.not_true, Bool.and_false]
    exact .removed _ hwants (.inr (.inl hpolicy))
  | dropDroppableFirst =>
    by_cases hmay : (!frame.key || frame.droppable) = true
    · obtain ⟨hnext, hevents⟩ := next_lost s.waiting false h hsends hlost
        (by simp [houtcome, Dispatch.send, hpolicy, lowered, hmay])
        (by simp [houtcome, Dispatch.send, hpolicy, hmay])
      rw [hnext, hevents, Bool.not_false, Bool.and_true]
      refine .kept s.waiting hwants (by simp [hpolicy]) (fun _ hkey => ?_) (by simp [hpolicy])
      simpa [hkey] using hmay
    · obtain ⟨hnext, hevents⟩ := next_lost s.waiting true h hsends hlost
        (by simp [houtcome, Dispatch.send, hpolicy, lowered, hmay])
        (by simp [houtcome, Dispatch.send, hpolicy, hmay])
      rw [hnext, hevents, Bool.not_true, Bool.and_false]
      refine .removed s.waiting hwants (.inr (.inr ⟨hpolicy, ?_⟩))
      simpa using hmay

theorem visit_closed {s : Subscriber} (h : s.attached = true)
    (hsends : sends s.sub s.waiting frame = true) (houtcome : s.channel.outcome = .closed) :
    Visit s frame (s.next frame) (s.events frame) := by
  have hclosed : s.channel.closed = true := by
    by_contra hopen
    simp only [Channel.outcome, hopen, if_false] at houtcome
    split at houtcome <;> cases houtcome
  obtain ⟨hnext, hevents⟩ := next_lost (lowered s.sub s.waiting) true h hsends
    (by simp [houtcome]) (by rw [houtcome]; rfl) (by simp [houtcome, Dispatch.send])
  rw [hnext, hevents, Bool.not_true, Bool.and_false]
  exact .removed _ (Bool.and_eq_true_iff.mp hsends).1 (.inl hclosed)

theorem visit_next {s : Subscriber} (h : s.attached = true) :
    Visit s frame (s.next frame) (s.events frame) := by
  cases hsends : sends s.sub s.waiting frame with
  | false => exact visit_next_unsent h hsends
  | true =>
    cases houtcome : s.channel.outcome with
    | ok => exact visit_delivered h hsends houtcome
    | full => exact visit_full h hsends houtcome
    | closed => exact visit_closed h hsends houtcome

end Round

section Alone
variable {s : Subscriber} {subs : List Subscriber}

/-- What a dispatch tells of a subscriber. -/
def Subscriber.told (s : Subscriber) (frame : AVFrame) : List Event :=
  if s.attached then s.events frame else []

/-- The loop treats every subscriber by itself. -/
theorem visitAll_spec (frame : AVFrame) (subs : List Subscriber) (d : Dispatch) :
    (visitAll frame subs d).1 =
        subs.map (fun s => if s.attached then s.visited frame (s.flag frame) else s) ∧
      (∀ i, i ∈ (visitAll frame subs d).2.1.removeIds ↔
        i ∈ d.removeIds ∨ ∃ s ∈ subs, s.attached = true ∧ s.removed frame = true ∧ s.sub.id = i) ∧
      (visitAll frame subs d).2.2 = subs.flatMap (·.told frame) := by
  induction subs generalizing d with
  | nil => simp [visitAll]
  | cons s subs ih =>
    cases hattached : s.attached with
    | false =>
      obtain ⟨hsubs, hids, hes⟩ := ih d
      simp only [visitAll, hattached, Bool.false_eq_true, if_false, List.map_cons, hsubs, hes,
        List.flatMap_cons, Subscriber.told, List.nil_append, List.exists_mem_cons_iff, false_and,
        false_or]
      exact ⟨trivial, hids, trivial⟩
    | true =>
      obtain ⟨hflag, hremoved⟩ := visit_spec frame s.sub s.channel.outcome s.waiting d
      obtain ⟨hsubs, hids, hes⟩ := ih (d.visit frame s.sub s.channel.outcome s.waiting).2
      simp only [visitAll, hattached, if_true, List.map_cons, hsubs, hes, List.flatMap_cons,
        Subscriber.told, List.exists_mem_cons_iff, true_and]
      refine ⟨by rw [hflag]; rfl, fun i => ?_, trivial⟩
      have hmine : i ∈ (Dispatch.visit frame s.sub s.channel.outcome s.waiting {}).2.removeIds ↔
          s.removed frame = true ∧ s.sub.id = i := by
        constructor
        · intro hi
          have heq := mem_visit_removeIds hi
          rw [heq] at hi
          exact ⟨decide_eq_true hi, heq.symm⟩
        · rintro ⟨hi, rfl⟩
          exact of_decide_eq_true hi
      rw [hids, hremoved, Finset.mem_union, hmine, or_assoc]

/-- A dispatch treats every subscriber by itself. -/
theorem dispatchFrame_spec (hids : (subs.map (·.sub.id)).Nodup) (frame : AVFrame) :
    (dispatchFrame subs frame).1 = subs.map (·.next frame) ∧
      (dispatchFrame subs frame).2.2 = subs.flatMap (·.told frame) := by
  unfold dispatchFrame
  split
  · rename_i hnone
    have hdetached : ∀ s ∈ subs, s.attached = false := by simpa using hnone
    constructor
    · have hsame : ∀ s ∈ subs, s.next frame = s := by
        intro s hs
        rw [Subscriber.next, hdetached s hs]
        rfl
      exact (List.map_congr_left hsame).trans subs.map_id' |>.symm
    · refine (List.flatMap_eq_nil_iff.mpr fun s hs => ?_).symm
      rw [Subscriber.told, hdetached s hs]
      rfl
  · obtain ⟨hsubs, hremoved, hes⟩ := visitAll_spec frame subs {}
    refine ⟨?_, hes⟩
    dsimp only
    rw [hsubs, removeSubscribers, List.map_map]
    refine List.map_congr_left fun s hs => ?_
    have hmine : s.sub.id ∈ (visitAll frame subs {}).2.1.removeIds ↔
        s.attached = true ∧ s.removed frame = true := by
      rw [hremoved]
      constructor
      · rintro (hi | ⟨s', hs', hattached, hgone, heq⟩)
        · simp at hi
        · rw [List.inj_on_of_nodup_map hids hs' hs heq] at hattached hgone
          exact ⟨hattached, hgone⟩
      · rintro ⟨hattached, hgone⟩
        exact .inr ⟨s, hs, hattached, hgone, rfl⟩
    cases hattached : s.attached with
    | false =>
      cases s
      cases hattached
      rfl
    | true =>
      have hgone :
          decide (s.sub.id ∈ (visitAll frame subs {}).2.1.removeIds) = s.removed frame := by
        simp [hmine, hattached]
      simp [Subscriber.next, hattached, Subscriber.visited, hgone]

/-- What an action does to one subscriber, and what is told of it. -/
def Subscriber.act (s : Subscriber) : Action → Subscriber × List Event
  | .dispatch frame => (s.next frame, s.told frame)
  | .read id => (if s.sub.id = id then s.read else s, [])
  | .close id =>
    (if s.sub.id = id then { s with channel := { s.channel with closed := true } } else s, [])

theorem step_spec (hids : (subs.map (·.sub.id)).Nodup) (a : Action) :
    step subs a = some (subs.map fun s => (s.act a).1, subs.flatMap fun s => (s.act a).2) := by
  cases a with
  | dispatch frame =>
    obtain ⟨hsubs, hes⟩ := dispatchFrame_spec hids frame
    simp only [step, hsubs, hes]
    rfl
  | read id => simp [step, onId, Subscriber.act]
  | close id => simp [step, onId, Subscriber.act]

theorem sub_next (s : Subscriber) (frame : AVFrame) : (s.next frame).sub = s.sub := by
  unfold Subscriber.next
  split <;> rfl

theorem sub_read (s : Subscriber) : s.read.sub = s.sub := by
  unfold Subscriber.read
  split <;> rfl

theorem sub_act (s : Subscriber) (a : Action) : (s.act a).1.sub = s.sub := by
  cases a with
  | dispatch frame => exact sub_next s frame
  | read id =>
    dsimp only [Subscriber.act]
    split
    · exact sub_read s
    · rfl
  | close id =>
    dsimp only [Subscriber.act]
    split <;> rfl

theorem ids_act (subs : List Subscriber) (a : Action) :
    (subs.map fun s => (s.act a).1).map (·.sub.id) = subs.map (·.sub.id) := by
  rw [List.map_map]
  exact List.map_congr_left fun s _ => congrArg DispatchSubscriber.id (sub_act s a)

/-- The entries that an event makes in the log of the subscriber it is about. -/
def entries (es : List Event) : List (AVFrame × Bool) :=
  es.map fun
    | .delivered _ frame => (frame, true)
    | .dropped _ frame => (frame, false)

/-- What is told of a subscriber names it. -/
theorem logOf_act (id : Nat) (s : Subscriber) (a : Action) :
    logOf id (s.act a).2 = if s.sub.id = id then entries (s.act a).2 else [] := by
  have hevents : ∀ frame, logOf id (s.events frame) =
      if s.sub.id = id then entries (s.events frame) else [] := by
    intro frame
    unfold Subscriber.events
    split
    · simp [logOf, entries]
    · split <;> (by_cases h : s.sub.id = id <;> simp [logOf, entries, h])
  cases a with
  | dispatch frame =>
    dsimp only [Subscriber.act, Subscriber.told]
    split
    · exact hevents frame
    · simp [logOf, entries]
  | read id' => simp [Subscriber.act, logOf, entries]
  | close id' => simp [Subscriber.act, logOf, entries]

theorem logOf_append (id : Nat) (es fs : List Event) :
    logOf id (es ++ fs) = logOf id es ++ logOf id fs := by
  simp [logOf]

theorem logOf_flatMap (hids : (subs.map (·.sub.id)).Nodup) (hs : s ∈ subs) (a : Action) :
    logOf s.sub.id (subs.flatMap fun s => (s.act a).2) = entries (s.act a).2 := by
  induction subs with
  | nil => cases hs
  | cons s' subs ih =>
    obtain ⟨hnew, hids⟩ := List.nodup_cons.mp hids
    rw [List.flatMap_cons, logOf_append, logOf_act]
    rcases List.mem_cons.mp hs with rfl | hs
    · have hothers : logOf s.sub.id (subs.flatMap fun s => (s.act a).2) = [] := by
        refine List.filterMap_eq_nil_iff.mpr fun e he => ?_
        obtain ⟨s', hs', he⟩ := List.mem_flatMap.mp he
        have hnone := logOf_act s.sub.id s' a
        rw [if_neg fun heq : s'.sub.id = s.sub.id => hnew (List.mem_map.mpr ⟨s', hs', heq⟩)]
          at hnone
        exact List.filterMap_eq_nil_iff.mp hnone e he
      rw [hothers, if_pos rfl, List.append_nil]
    · have hother : s'.sub.id ≠ s.sub.id := fun heq => hnew (List.mem_map.mpr ⟨s, hs, heq.symm⟩)
      rw [if_neg hother, List.nil_append]
      exact ih hids hs

/-- One subscriber alone. -/
def alone : Transition Subscriber Action (AVFrame × Bool) := fun s a =>
  some ((s.act a).1, entries (s.act a).2)

/-- In a run every subscriber does what it would do alone. -/
theorem run_alone (hids : (subs.map (·.sub.id)).Nodup) (hs : s ∈ subs)
    (hrun : Transition.run step subs actions = some (subs', es)) :
    ∃ s' ∈ subs', s'.sub = s.sub ∧
      Transition.run alone s actions = some (s', logOf s.sub.id es) := by
  induction actions generalizing subs s es with
  | nil =>
    cases hrun
    exact ⟨s, hs, rfl, rfl⟩
  | cons a as ih =>
    obtain ⟨t, es', gs, ha, hrest, rfl⟩ := Transition.run_cons_eq hrun
    rw [step_spec hids] at ha
    cases ha
    have hsub := sub_act s a
    obtain ⟨s', hs', hsame, halone⟩ :=
      ih (by rwa [ids_act]) (List.mem_map_of_mem (f := fun s => (s.act a).1) hs) hrest
    rw [hsub] at hsame halone
    refine ⟨s', hs', hsame, ?_⟩
    rw [logOf_append, logOf_flatMap hids hs]
    simp [Transition.run, alone, halone]

end Alone

section Served

/-- The frames after which a subscriber is gone when it does not get them. -/
def Fatal (sub : DispatchSubscriber) (frame : AVFrame) : Prop :=
  sub.policy = .disconnectOnOverflow ∨
    sub.policy = .dropDroppableFirst ∧ frame.key = true ∧ frame.droppable = false

/-- The last frame was dropped. -/
def EndsDropped (log : List (AVFrame × Bool)) : Prop :=
  ∃ before frame, log = before ++ [(frame, false)]

/-- What a subscriber has seen of the frames that were dispatched. -/
structure Served (frames : List AVFrame) (log : List (AVFrame × Bool)) (s : Subscriber) : Prop where
  offered : log.map Prod.fst <+: frames.filter (wants s.sub)
  current : s.attached = true → log.map Prod.fst = frames.filter (wants s.sub)
  arrived : s.received ++ s.channel.queue = delivered log
  gated : s.sub.policy = .dropUntilNextKeyframe →
    AtEach (fun before e => EndsDropped before → e.2 = true → e.1.key = true) log
  waits : s.sub.policy = .dropUntilNextKeyframe → s.attached = true → EndsDropped log →
    s.waiting = true
  last : AtEach (fun before _ => ∀ e ∈ before, e.2 = false → ¬Fatal s.sub e.1) log
  spared : s.attached = true → ∀ e ∈ log, e.2 = false → ¬Fatal s.sub e.1
  gone : s.attached = false → s.channel.closed = true ∨ ∃ frame, (frame, false) ∈ log ∧
    Fatal s.sub frame

theorem Fresh.served (h : Fresh s) : Served [] [] s where
  offered := List.prefix_rfl
  current _ := rfl
  arrived := by simp [h.received, h.queue, delivered]
  gated _ := atEach_nil
  waits _ _ hends := by
    obtain ⟨before, frame, heq⟩ := hends
    simp at heq
  last := atEach_nil
  spared _ e he := by cases he
  gone hgone := by simp [h.attached] at hgone

theorem delivered_snoc (log : List (AVFrame × Bool)) (frame : AVFrame) (got : Bool) :
    delivered (log ++ [(frame, got)]) = delivered log ++ if got then [frame] else [] := by
  cases got <;> simp [delivered]

theorem endsDropped_snoc : EndsDropped (log ++ [(frame, got)]) ↔ got = false := by
  constructor
  · rintro ⟨before, f, heq⟩
    have hlast := (List.append_inj' heq rfl).2
    cases hlast
    rfl
  · rintro rfl
    exact ⟨log, frame, rfl⟩

theorem filter_snoc (p : AVFrame → Bool) (frames : List AVFrame) (frame : AVFrame) :
    (frames ++ [frame]).filter p = frames.filter p ++ if p frame then [frame] else [] := by
  rw [List.filter_append]
  cases h : p frame <;> simp [h]

/-- A subscriber that has left is offered nothing more. -/
theorem Served.left (h : Served frames log s) (hleft : s.attached = false) (frame : AVFrame) :
    Served (frames ++ [frame]) log s :=
  { h with
    offered := by
      rw [filter_snoc]
      exact h.offered.trans (List.prefix_append _ _)
    current := fun hattached => by simp [hleft] at hattached }

/-- A frame that is wanted makes an entry in the log. -/
theorem Served.entry (h : Served frames log s) (hattached : s.attached = true)
    (hwants : wants s.sub frame = true) (got : Bool) :
    (log ++ [(frame, got)]).map Prod.fst = (frames ++ [frame]).filter (wants s.sub) := by
  rw [filter_snoc, if_pos hwants, List.map_append, h.current hattached]
  rfl

theorem Served.visit (h : Served frames log s) (hattached : s.attached = true)
    (hvisit : Visit s frame t es) : Served (frames ++ [frame]) (log ++ entries es) t := by
  have hspared := h.spared hattached
  cases hvisit with
  | skipped hwants =>
    have hsame : (frames ++ [frame]).filter (wants s.sub) = frames.filter (wants s.sub) := by
      rw [filter_snoc, hwants]
      simp
    rw [entries, List.map_nil, List.append_nil]
    exact { h with
      offered := by rw [hsame]; exact h.offered
      current := fun hattached => by rw [hsame]; exact h.current hattached }
  | delivered waiting hwants hgate =>
    have hentry := h.entry hattached hwants true
    exact {
      offered := hentry ▸ List.prefix_rfl
      current := fun _ => hentry
      arrived := by
        show _ = delivered (log ++ [(frame, true)])
        rw [delivered_snoc, ← h.arrived]
        exact (List.append_assoc ..).symm
      gated := fun hpolicy =>
        (h.gated hpolicy).snoc fun hends _ => hgate hpolicy (h.waits hpolicy hattached hends)
      waits := fun _ _ hends => by
        cases endsDropped_snoc.mp hends
      last := h.last.snoc hspared
      spared := fun _ e he hlost => by
        rcases List.mem_append.mp he with he | he
        · exact hspared e he hlost
        · cases List.mem_singleton.mp he
          cases hlost
      gone := fun hgone => by simp [hattached] at hgone }
  | kept waiting hwants hwaiting hdroppable hpolicy =>
    have hentry := h.entry hattached hwants false
    exact {
      offered := hentry ▸ List.prefix_rfl
      current := fun _ => hentry
      arrived := by
        show _ = delivered (log ++ [(frame, false)])
        rw [delivered_snoc, ← h.arrived]
        exact (List.append_nil _).symm
      gated := fun hpolicy => (h.gated hpolicy).snoc fun _ hgot => by cases hgot
      waits := fun hpolicy _ _ => hwaiting hpolicy
      last := h.last.snoc hspared
      spared := fun _ e he hlost => by
        rcases List.mem_append.mp he with he | he
        · exact hspared e he hlost
        · cases List.mem_singleton.mp he
          rintro (hfatal | ⟨hfatal, hkey, hdrop⟩)
          · exact hpolicy hfatal
          · simp [hdroppable hfatal hkey] at hdrop
      gone := fun hgone => by simp [hattached] at hgone }
  | removed waiting hwants hwhy =>
    have hentry := h.entry hattached hwants false
    exact {
      offered := hentry ▸ List.prefix_rfl
      current := fun hattached => by cases hattached
      arrived := by
        show _ = delivered (log ++ [(frame, false)])
        rw [delivered_snoc, ← h.arrived]
        exact (List.append_nil _).symm
      gated := fun hpolicy => (h.gated hpolicy).snoc fun _ hgot => by cases hgot
      waits := fun _ hattached _ => by cases hattached
      last := h.last.snoc hspared
      spared := fun hattached => by cases hattached
      gone := fun _ => by
        rcases hwhy with hclosed | hfatal
        · exact .inl hclosed
        · exact .inr ⟨frame, List.mem_append_right _ (List.mem_singleton.mpr rfl), hfatal⟩ }

theorem Served.read (h : Served frames log s) : Served frames log s.read := by
  unfold Subscriber.read
  split
  · exact h
  · rename_i frame queue hqueue
    have harrived : (s.received ++ [frame]) ++ queue = delivered log := by
      rw [← h.arrived, hqueue, List.append_assoc]
      rfl
    exact { h with arrived := harrived }

theorem Served.close (h : Served frames log s) :
    Served frames log { s with channel := { s.channel with closed := true } } :=
  { h with gone := fun _ => .inl rfl }

theorem Served.act (h : Served (dispatched actions) log s) (a : Action) :
    Served (dispatched (actions ++ [a])) (log ++ entries (s.act a).2) (s.act a).1 := by
  have hquiet : ∀ id, dispatched (actions ++ [.read id]) = dispatched actions ∧
      dispatched (actions ++ [.close id]) = dispatched actions := by
    intro id
    simp [dispatched]
  cases a with
  | dispatch frame =>
    have hframes : dispatched (actions ++ [.dispatch frame]) = dispatched actions ++ [frame] := by
      simp [dispatched]
    rw [hframes]
    dsimp only [Subscriber.act]
    cases hattached : s.attached with
    | true =>
      rw [Subscriber.told, if_pos hattached]
      exact h.visit hattached (visit_next hattached)
    | false =>
      rw [Subscriber.told, hattached, Subscriber.next, hattached]
      simpa [entries] using h.left hattached frame
  | read id =>
    rw [(hquiet id).1]
    dsimp only [Subscriber.act, entries]
    rw [List.map_nil, List.append_nil]
    split
    · exact h.read
    · exact h
  | close id =>
    rw [(hquiet id).2]
    dsimp only [Subscriber.act, entries]
    rw [List.map_nil, List.append_nil]
    split
    · exact h.close
    · exact h

theorem served_alone (h : Fresh s) (hrun : Transition.run alone s actions = some (s', log)) :
    Served (dispatched actions) log s' := by
  refine Transition.run_observed (fun as log s => Served (dispatched as) log s) ?_ [] [] h.served
    Transition.along_true hrun
  intro as log s a t fs hserved _ hstep
  cases hstep
  exact hserved.act a

end Served

section Gate

theorem endsDropped_of_lost (before : List (AVFrame × Bool)) (frame : AVFrame)
    (h : ∀ e ∈ between, e.2 = false) : EndsDropped (before ++ (frame, false) :: between) := by
  rcases List.eq_nil_or_concat' between with rfl | ⟨front, ⟨f, got⟩, rfl⟩
  · exact ⟨before, frame, rfl⟩
  · rw [← List.cons_append, ← List.append_assoc, endsDropped_snoc]
    exact h (f, got) (List.mem_append_right _ (List.mem_singleton.mpr rfl))

theorem gatedByKey
    (h : AtEach (fun before e => EndsDropped before → e.2 = true → e.1.key = true) log) :
    GatedByKey log := by
  intro before f between g after heq hbetween
  rw [← List.cons_append, ← List.append_assoc] at heq
  exact h _ (g, true) after heq (endsDropped_of_lost before f hbetween) rfl

theorem delivered_sublist (log : List (AVFrame × Bool)) :
    (delivered log).Sublist (log.map Prod.fst) :=
  List.filter_sublist.map Prod.fst

/-- Where nothing follows a lost frame, what was delivered is what came first. -/
theorem delivered_first
    (h : ∀ before frame after, log = before ++ (frame, false) :: after → after = []) :
    delivered log <+: log.map Prod.fst := by
  induction log with
  | nil => exact List.prefix_rfl
  | cons e log ih =>
    obtain ⟨frame, got⟩ := e
    cases got with
    | true =>
      have hrest := ih fun before f after heq =>
        h ((frame, true) :: before) f after (by rw [heq]; rfl)
      exact List.prefix_cons_inj frame |>.mpr hrest
    | false =>
      rw [h [] frame log rfl]
      exact List.nil_prefix

/-- A subscriber that loses a frame it cannot do without sees no more. -/
theorem Served.fatal (h : Served frames log s) (hlog : log = before ++ (frame, false) :: after)
    (hfatal : Fatal s.sub frame) : after = [] ∧ s.attached = false := by
  constructor
  · cases after with
    | nil => rfl
    | cons e after =>
      rw [List.append_cons] at hlog
      exact absurd hfatal (h.last _ e after hlog (frame, false)
        (List.mem_append_right _ (List.mem_singleton.mpr rfl)) rfl)
  · cases hattached : s.attached with
    | false => rfl
    | true =>
      have hmem : (frame, false) ∈ log := by simp [hlog]
      exact absurd hfatal (h.spared hattached _ hmem rfl)

/-- In every run a subscriber is offered the frames that pass its filter, in order, for as long
as it stays. With `DropUntilNextKeyframe` a key frame comes first after every loss; with
`DropDroppableFirst` it misses a key frame that is not droppable only by being removed there;
with `DisconnectOnOverflow` it gets a prefix. -/
theorem frames_gated {subs subs' : List Subscriber} {s : Subscriber}
    (hids : (subs.map (·.sub.id)).Nodup) (hs : s ∈ subs) (hfresh : Fresh s)
    (hrun : Transition.run step subs actions = some (subs', es)) :
    ∃ s' ∈ subs', s'.sub = s.sub ∧
      s'.received <+: delivered (logOf s.sub.id es) ∧
      (logOf s.sub.id es).map Prod.fst <+: (dispatched actions).filter (wants s.sub) ∧
      (s'.attached = true →
        (logOf s.sub.id es).map Prod.fst = (dispatched actions).filter (wants s.sub)) ∧
      (s.sub.policy = .dropUntilNextKeyframe →
        (delivered (logOf s.sub.id es)).Sublist ((dispatched actions).filter (wants s.sub)) ∧
        GatedByKey (logOf s.sub.id es)) ∧
      (s.sub.policy = .dropDroppableFirst →
        (∀ before frame after, logOf s.sub.id es = before ++ (frame, false) :: after →
          frame.key = true → frame.droppable = false → after = [] ∧ s'.attached = false) ∧
        (s'.attached = false → s'.channel.closed = true ∨
          ∃ frame, (frame, false) ∈ logOf s.sub.id es ∧ frame.key = true ∧
            frame.droppable = false)) ∧
      (s.sub.policy = .disconnectOnOverflow →
        delivered (logOf s.sub.id es) <+: (dispatched actions).filter (wants s.sub)) := by
  obtain ⟨s', hs', hsub, halone⟩ := run_alone hids hs hrun
  have hserved := served_alone hfresh halone
  have hoffered := hserved.offered
  rw [hsub] at hoffered
  refine ⟨s', hs', hsub, ⟨_, hserved.arrived⟩, hoffered, fun h => hsub ▸ hserved.current h,
    ?_, ?_, ?_⟩
  · intro hpolicy
    exact ⟨(delivered_sublist _).trans hoffered.sublist,
      gatedByKey (hserved.gated (hsub ▸ hpolicy))⟩
  · intro hpolicy
    rw [← hsub] at hpolicy
    refine ⟨fun before frame after hlog hkey hdrop =>
      hserved.fatal hlog (.inr ⟨hpolicy, hkey, hdrop⟩), fun hgone => ?_⟩
    refine (hserved.gone hgone).imp_right fun ⟨frame, hmem, hfatal⟩ => ⟨frame, hmem, ?_⟩
    rcases hfatal with hfatal | ⟨-, hkey, hdrop⟩
    · rw [hpolicy] at hfatal
      cases hfatal
    · exact ⟨hkey, hdrop⟩
  · intro hpolicy
    rw [← hsub] at hpolicy
    exact (delivered_first fun before frame after hlog =>
      (hserved.fatal hlog (.inl hpolicy)).1).trans hoffered

def keyFrame : AVFrame := ⟨.video, true, false⟩

def deltaFrame : AVFrame := ⟨.video, false, false⟩

def slowViewer (policy : BackpressurePolicy) : Subscriber where
  sub := ⟨1, policy, {}, 0⟩
  channel := { capacity := 1 }

theorem frames_gated_slow : ∃ subs es, Transition.run step [slowViewer .dropUntilNextKeyframe]
    [.dispatch keyFrame, .dispatch deltaFrame, .read 1, .dispatch deltaFrame, .dispatch keyFrame] =
      some (subs, es) ∧ GatedByKey (logOf 1 es) := by
  obtain ⟨⟨subs, es⟩, hrun⟩ : ∃ r, Transition.run step [slowViewer .dropUntilNextKeyframe]
    [.dispatch keyFrame, .dispatch deltaFrame, .read 1, .dispatch deltaFrame, .dispatch keyFrame] =
      some r := ⟨_, rfl⟩
  obtain ⟨s', -, -, -, -, -, hgate, -⟩ := frames_gated (s := slowViewer .dropUntilNextKeyframe)
    (by decide) (List.mem_singleton.mpr rfl) (by decide) hrun
  exact ⟨subs, es, hrun, (hgate rfl).2⟩

/-- Two key frames in a row for a subscriber that reads neither: the second one removes it. -/
theorem key_frame_missed : Fresh (slowViewer .dropDroppableFirst) ∧
    (Transition.run step [slowViewer .dropDroppableFirst]
        [.dispatch keyFrame, .dispatch keyFrame]).map
      (fun r => (r.1.map (·.attached), logOf 1 r.2)) =
        some ([false], [(keyFrame, true), (keyFrame, false)]) ∧
    keyFrame.key = true ∧ keyFrame.droppable = false := by
  decide

end Gate

end CheetahMedia.Engine.Gating
