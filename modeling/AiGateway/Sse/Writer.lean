import AiGateway.Machine.Arithmetic
import AiGateway.Text.Bytes

/-! The writer of a stream (`internal/sse/writer.go`) under the calls of several goroutines.
The mutex is held from the check of the flags to the return, so what calls do to the writer
is a sequence of steps of the call that holds it; a heartbeat is a comment and `WriteJSON` a
data event. -/
namespace Sse
open Text Machine List

def maximumDownstreamDataBytes : ℕ := 256 * 1024

def maximumDownstreamCommentBytes : ℕ := 4096

/-- The lines of a payload, each after a label, and an empty line. -/
def encodeLines (label payload : Bytes) : Bytes :=
  let normalized := replaceAll [cr] [lf] (replaceAll [cr,lf] [lf] payload)
  ((normalized.splitOn lf).flatMap fun line => label ++ line ++ [lf]) ++ [lf]

def encodeDataEvent (data : Bytes) : Bytes := encodeLines (ascii "data: ") data

def encodeCommentEvent (comment : Bytes) : Bytes := encodeLines (ascii ": ") comment

/-- A call of the writer; `WriteJSON` is `WriteData` of what the encoder returns. -/
inductive Write where
  | data (payload : Bytes)
  | comment (text : Bytes)
  | done
  deriving DecidableEq

namespace Write

/-- The checks before `writeEvent`. -/
def valid : Write → Bool
  | .data payload =>
      !payload.isEmpty && payload.length ≤ maximumDownstreamDataBytes && utf8Valid payload
  | .comment text =>
      !text.isEmpty && text.length ≤ maximumDownstreamCommentBytes && utf8Valid text &&
        !text.contains 0
  | .done => true

def encoded : Write → Bytes
  | .data payload => encodeDataEvent payload
  | .comment text => encodeCommentEvent text
  | .done => ascii "data: [DONE]\n\n"

def terminal : Write → Bool
  | .done => true
  | _ => false

end Write

inductive WriterError where
  | invalid
  | unsupported
  | closed
  | timeout
  | disconnected
  | failed
  deriving DecidableEq

/-- Why the response writer or its controller refused. -/
inductive Cause where
  | notSupported
  | timeout
  | connectionClosed
  | shortWrite
  | other

def classifyWriteError (contextDone : Bool) (cause : Cause) : WriterError :=
  if contextDone then .disconnected
  else match cause with
    | .notSupported => .unsupported
    | .timeout => .timeout
    | .connectionClosed => .disconnected
    | .shortWrite | .other => .failed

/-- What a step gets from outside: the context, the clock, and the answer of the response writer,
which has accepted as many bytes as it reports. -/
structure Answer where
  contextDone : Bool
  now : Time
  written : ℤ
  err : Option Cause

/-- Where a call stands that holds the mutex. -/
inductive Stage where
  | entered
  | arming
  | writing (encoded : Bytes)
  | flushing
  | clearing

/-- The writer with the call that holds its mutex, the bytes of the client, the calls in the order
in which they took the mutex, and what they returned. -/
structure Writer where
  terminal : Bool := false
  failed : Bool := false
  held : Option (Write × Stage) := none
  received : Bytes := []
  taken : List Write := []
  returned : List (Write × Option WriterError) := []

namespace Writer

def closed (s : Writer) : Bool := s.terminal || s.failed

/-- The calls that returned nil. -/
def succeeded (s : Writer) : List Write :=
  (s.returned.filter fun r => r.2.isNone).map Prod.fst

def returns (s : Writer) (w : Write) (err : Option WriterError) : Writer :=
  { s with held := none, returned := s.returned ++ [(w,err)] }

def fails (s : Writer) (w : Write) (err : WriterError) : Writer :=
  { s.returns w (some err) with failed := true }

def goes (s : Writer) (w : Write) (stage : Stage) : Writer := { s with held := some (w,stage) }

/-- Where a call of the response writer or its controller may have failed. -/
def checked (s : Writer) (a : Answer) (w : Write) (next : Writer) : Writer :=
  match a.err with
  | some cause => s.fails w (classifyWriteError a.contextDone cause)
  | none => next

/-- One round of the loop of `writeAll`. -/
def writeAll (s : Writer) (a : Answer) (w : Write) (encoded : Bytes) : Writer :=
  let sent := { s with received := s.received ++ encoded.take a.written.toNat }
  if a.written < 0 ∨ encoded.length < a.written then
    sent.fails w (classifyWriteError a.contextDone .shortWrite)
  else sent.checked a w <|
    if a.written = 0 then sent.fails w (classifyWriteError a.contextDone .shortWrite)
    else sent.goes w (.writing (encoded.drop a.written.toNat))

def writeEvent (writeLimit : Time) (s : Writer) (a : Answer) (w : Write) : Stage → Writer
  | .entered =>
      if s.terminal || s.failed then s.returns w (some .closed)
      else if a.contextDone then s.fails w .disconnected
      else s.goes w .arming
  | .arming =>
      if a.now + writeLimit = zeroTime then s.fails w .invalid
      else s.checked a w (s.goes w (.writing w.encoded))
  | .writing encoded => if encoded = [] then s.goes w .flushing else s.writeAll a w encoded
  | .flushing => s.checked a w (s.goes w .clearing)
  | .clearing => s.checked a w { s.returns w none with terminal := w.terminal }

/-- A call takes the mutex, or the call that holds it makes a step. -/
inductive Event where
  | call (w : Write)
  | answer (a : Answer)

def step (writeLimit : Time) (s : Writer) : Event → Writer
  | .call w =>
      if w.valid ∧ s.held = none then
        { s with held := some (w,.entered), taken := s.taken ++ [w] }
      else s
  | .answer a =>
      match s.held with
      | none => s
      | some (w,stage) => s.writeEvent writeLimit a w stage

def run (writeLimit : Time) : Writer → List Event → Writer := foldl (step writeLimit)

end Writer

/-- What a call at a stage has still to send. -/
def Stage.pending (w : Write) : Stage → Bytes
  | .entered | .arming => w.encoded
  | .writing encoded => encoded
  | .flushing | .clearing => []

/-- The calls `ws` returned nil, then `errs` returned errors, and `part` was received after the
events of `ws`. -/
structure Writer.Sound (s : Writer) (ws : List Write) (errs : List (Write × WriterError))
    (part : Bytes) : Prop where
  returned : s.returned = ws.map (fun w => (w,none)) ++ errs.map (fun e => (e.1,some e.2))
  taken : s.taken = s.returned.map Prod.fst ++ s.held.toList.map Prod.fst
  received : s.received = ws.flatMap Write.encoded ++ part
  terminal : ∀ w ∈ ws, w.terminal → s.terminal
  once : ws.countP Write.terminal ≤ 1
  opened : s.closed = false → errs = []
  idle : s.closed = false → s.held = none → part = []
  busy : s.closed = false → ∀ w stage, s.held = some (w,stage) → part ++ stage.pending w = w.encoded
  entered : s.closed → ∀ w stage, s.held = some (w,stage) → stage = .entered
  cut : s.closed → part = [] ∨ ∃ e ∈ errs.head?, part <+: e.1.encoded

namespace Writer.Sound

variable {s : Writer} {ws : List Write} {errs : List (Write × WriterError)} {part more : Bytes}
  {w : Write} {stage : Stage}

theorem start : Writer.Sound {} [] [] [] := by
  constructor <;> simp [Writer.closed]

section
variable (hs : s.Sound ws errs part)
include hs

section
variable (hopen : s.closed = false) (hheld : s.held = some (w,stage))
include hopen hheld

/-- The call that holds the mutex fails after some more bytes of its event. -/
theorem fails (hmore : more <+: stage.pending w) (err : WriterError) :
    Sound ({ s with received := s.received ++ more }.fails w err) ws [(w,err)] (part ++ more) := by
  have hprefix : part ++ more <+: w.encoded := by
    rw [← hs.busy hopen w stage hheld]
    exact (prefix_append_right_inj part).mpr hmore
  constructor
  case returned => simp [Writer.fails,Writer.returns,hs.returned,hs.opened hopen]
  case taken => simp [Writer.fails,Writer.returns,hs.taken,hheld]
  case received => simp [Writer.fails,Writer.returns,hs.received]
  case terminal => exact hs.terminal
  case once => exact hs.once
  case cut => exact fun _ => .inr ⟨_,rfl, hprefix⟩
  all_goals simp [Writer.fails,Writer.returns,Writer.closed]

theorem stops (err : WriterError) : Sound (s.fails w err) ws [(w,err)] part := by
  simpa using hs.fails hopen hheld nil_prefix err

theorem goes {next : Stage} (hnext : more ++ next.pending w = stage.pending w) :
    Sound ({ s with received := s.received ++ more }.goes w next) ws errs (part ++ more) where
  returned := hs.returned
  taken := by simp [Writer.goes,hs.taken,hheld]
  received := by simp [Writer.goes,hs.received]
  terminal := hs.terminal
  once := hs.once
  opened := hs.opened
  idle := by simp [Writer.goes]
  busy := by
    intro _ w' stage' h
    obtain ⟨rfl,rfl⟩ : w = w' ∧ next = stage' := by simpa [Writer.goes] using h
    rw [append_assoc,hnext,hs.busy hopen w stage hheld]
  entered := fun h => absurd (hopen.symm.trans h) Bool.false_ne_true
  cut := fun h => absurd (hopen.symm.trans h) Bool.false_ne_true

theorem turns {next : Stage} (hnext : next.pending w = stage.pending w) :
    Sound (s.goes w next) ws errs part := by
  have hgoes := hs.goes hopen hheld ((nil_append _).trans hnext)
  simpa using hgoes

end

theorem completes (hopen : s.closed = false) (hheld : s.held = some (w,.clearing)) :
    Sound { s.returns w none with terminal := w.terminal } (ws ++ [w]) [] [] := by
  have hnone : ∀ w ∈ ws, ¬ w.terminal := by
    intro w hw hterm
    simp [Writer.closed,hs.terminal w hw hterm] at hopen
  have hpart : part = w.encoded := by
    simpa [Stage.pending] using hs.busy hopen w _ hheld
  constructor
  case returned => simp [Writer.returns,hs.returned,hs.opened hopen]
  case taken => simp [Writer.returns,hs.taken,hheld]
  case received => simp [Writer.returns,hs.received,hpart]
  case terminal =>
    intro w' hw' hterm
    rcases mem_append.mp hw' with hw' | hw'
    · exact absurd hterm (hnone w' hw')
    · simpa [mem_singleton.mp hw'] using hterm
  case once =>
    rw [countP_append,countP_eq_zero.mpr hnone,Nat.zero_add]
    exact countP_le_length
  all_goals simp [Writer.returns]

theorem refused (hclosed : s.closed) (hheld : s.held = some (w,stage)) :
    Sound (s.returns w (some .closed)) ws (errs ++ [(w,.closed)]) part := by
  have hnot : ¬ s.closed = false := by simp [hclosed]
  constructor
  case returned => simp [Writer.returns,hs.returned]
  case taken => simp [Writer.returns,hs.taken,hheld]
  case received => exact hs.received
  case terminal => exact hs.terminal
  case once => exact hs.once
  case cut =>
    intro _
    rcases hs.cut hclosed with hpart | ⟨e,he,hpart⟩
    · exact .inl hpart
    · exact .inr ⟨e,by cases errs <;> simp_all,hpart⟩
  case entered => simp [Writer.returns]
  all_goals exact fun h => absurd h hnot

theorem call (hheld : s.held = none) :
    Sound { s with held := some (w,.entered), taken := s.taken ++ [w] } ws errs part where
  returned := hs.returned
  taken := by simp [hs.taken,hheld]
  received := hs.received
  terminal := hs.terminal
  once := hs.once
  opened := hs.opened
  idle := by simp
  busy := by
    intro hopen w' stage' h
    obtain ⟨rfl,rfl⟩ : w = w' ∧ Stage.entered = stage' := by simpa using h
    rw [hs.idle hopen hheld]
    rfl
  entered := by
    intro _ w' stage' h
    exact ((Prod.mk.inj (Option.some.inj h)).2).symm
  cut := hs.cut

theorem writeAll (hopen : s.closed = false) {encoded : Bytes}
    (hheld : s.held = some (w,.writing encoded)) (a : Answer) :
    ∃ errs part, Sound (s.writeAll a w encoded) ws errs part := by
  have hfails := fun err => hs.fails hopen hheld (List.take_prefix a.written.toNat encoded) err
  unfold Writer.writeAll Writer.checked
  dsimp only
  split
  · exact ⟨_,_,hfails _⟩
  · split
    · exact ⟨_,_,hfails _⟩
    · split
      · exact ⟨_,_,hfails _⟩
      · exact ⟨_,_,hs.goes hopen hheld (take_append_drop _ _)⟩

theorem checked (hopen : s.closed = false) (hheld : s.held = some (w,stage)) (a : Answer)
    {next : Writer} (hnext : ∃ ws errs part, Sound next ws errs part) :
    ∃ ws errs part, Sound (s.checked a w next) ws errs part := by
  unfold Writer.checked
  split
  · exact ⟨_,_,_,hs.stops hopen hheld _⟩
  · exact hnext

theorem writeEvent (hheld : s.held = some (w,stage)) (writeLimit : Time) (a : Answer) :
    ∃ ws errs part, Sound (s.writeEvent writeLimit a w stage) ws errs part := by
  cases hclosed : s.closed with
  | true =>
    have hflag : (s.terminal || s.failed) := hclosed
    rw [hs.entered hclosed w stage hheld,Writer.writeEvent,if_pos hflag]
    exact ⟨_,_,_,hs.refused hclosed hheld⟩
  | false =>
    have hflag : ¬ (s.terminal || s.failed) := by simpa [Writer.closed] using hclosed
    have hturns := fun (next : Stage) (h : next.pending w = stage.pending w) =>
      hs.turns hclosed hheld h
    cases stage with
    | entered =>
      rw [Writer.writeEvent,if_neg hflag]
      split
      · exact ⟨_,_,_,hs.stops hclosed hheld _⟩
      · exact ⟨_,_,_,hturns .arming rfl⟩
    | arming =>
      rw [Writer.writeEvent]
      split
      · exact ⟨_,_,_,hs.stops hclosed hheld _⟩
      · exact hs.checked hclosed hheld a ⟨_,_,_,hturns (.writing w.encoded) rfl⟩
    | writing encoded =>
      rw [Writer.writeEvent]
      split
      · exact ⟨_,_,_,hturns .flushing (Eq.symm ‹_›)⟩
      · exact ⟨_,hs.writeAll hclosed hheld a⟩
    | flushing => exact hs.checked hclosed hheld a ⟨_,_,_,hturns .clearing rfl⟩
    | clearing => exact hs.checked hclosed hheld a ⟨_,_,_,hs.completes hclosed hheld⟩

theorem step (writeLimit : Time) (event : Writer.Event) :
    ∃ ws errs part, Sound (s.step writeLimit event) ws errs part := by
  cases event with
  | call w =>
    rw [Writer.step]
    split
    · exact ⟨_,_,_,hs.call (And.right ‹_›)⟩
    · exact ⟨_,_,_,hs⟩
  | answer a =>
    rw [Writer.step]
    cases hheld : s.held with
    | none => exact ⟨_,_,_,hs⟩
    | some held => exact hs.writeEvent hheld writeLimit a

theorem run (writeLimit : Time) (events : List Writer.Event) :
    ∃ ws errs part, Sound (s.run writeLimit events) ws errs part := by
  induction events generalizing s ws errs part with
  | nil => exact ⟨_,_,_,hs⟩
  | cons event events ih =>
    obtain ⟨_,_,_,hstep⟩ := hs.step writeLimit event
    exact ih hstep

theorem step_closed (hclosed : s.closed) (writeLimit : Time) (event : Writer.Event) :
    (s.step writeLimit event).closed ∧ (s.step writeLimit event).received = s.received := by
  cases event with
  | call w =>
    rw [Writer.step]
    split <;> exact ⟨hclosed,rfl⟩
  | answer a =>
    rw [Writer.step]
    cases hheld : s.held with
    | none => exact ⟨hclosed,rfl⟩
    | some held =>
      obtain ⟨w,stage⟩ := held
      have hflag : (s.terminal || s.failed) := hclosed
      dsimp only
      rw [hs.entered hclosed w stage hheld,Writer.writeEvent,if_pos hflag]
      exact ⟨hclosed,rfl⟩

theorem run_closed (hclosed : s.closed) (writeLimit : Time) (events : List Writer.Event) :
    (s.run writeLimit events).received = s.received := by
  induction events generalizing s ws errs part with
  | nil => rfl
  | cons event events ih =>
    obtain ⟨_,_,_,hstep⟩ := hs.step writeLimit event
    obtain ⟨hstill,hsame⟩ := hs.step_closed hclosed writeLimit event
    exact (ih hstep hstill).trans hsame

theorem succeeded : s.succeeded = ws := by
  simp [Writer.succeeded,hs.returned,filter_map,Function.comp_def]

theorem closes (h : (∃ r ∈ s.returned, r.2 ≠ none) ∨ (Write.done,none) ∈ s.returned) :
    s.closed := by
  by_contra hopen
  have hopen : s.closed = false := by simpa using hopen
  simp only [hs.returned,hs.opened hopen,map_nil,append_nil] at h
  rcases h with ⟨r,hr,herr⟩ | hdone
  · obtain ⟨w,-,rfl⟩ := mem_map.mp hr
    exact herr rfl
  · obtain ⟨w,hw,heq⟩ := mem_map.mp hdone
    obtain rfl : w = .done := congrArg Prod.fst heq
    simp [Writer.closed,hs.terminal .done hw rfl] at hopen

theorem count_done : s.returned.count (Write.done,none) ≤ 1 := by
  have herrs : (errs.map fun e => (e.1,some e.2)).count (Write.done,none) = 0 := by
    simp [count_eq_zero]
  rw [hs.returned,count_append,herrs,Nat.add_zero,count,countP_map]
  refine (countP_mono_left fun w _ h => ?_).trans hs.once
  have hw : w = .done := by simpa using h
  rw [hw]
  rfl

theorem validPrefix : ∃ rest part, s.taken = s.succeeded ++ rest ∧
      s.received = s.succeeded.flatMap Write.encoded ++ part ∧
      (part = [] ∨ ∃ w ∈ rest.head?, part <+: w.encoded) := by
  refine ⟨errs.map Prod.fst ++ s.held.toList.map Prod.fst,part,?_,?_,?_⟩
  · simp [hs.succeeded,hs.taken,hs.returned,Function.comp_def]
  · rw [hs.succeeded,hs.received]
  · cases hclosed : s.closed with
    | true =>
      rcases hs.cut hclosed with hpart | ⟨e,he,hpart⟩
      · exact .inl hpart
      · exact .inr ⟨e.1,by cases errs <;> simp_all,hpart⟩
    | false =>
      cases hheld : s.held with
      | none => exact .inl (hs.idle hclosed hheld)
      | some held =>
        have hsent := hs.busy hclosed held.1 held.2 hheld
        exact .inr ⟨held.1,by simp [hs.opened hclosed],⟨_,hsent⟩⟩

end
end Writer.Sound

end Sse
