import AiGateway.Streaming.Deadlines

/-! The invariant of the timeout controller. -/
namespace Streaming.Timeout
open Adapter Interleaving List

variable {ι ε : Type}

structure Shared.Sound (s : Shared ι ε) : Prop where
  failed : ∀ f, s.controller.timeoutFailure = some f → s.controller.terminalErr = some (.failure f)
  failure : ∀ f, s.controller.terminalErr = some (.failure f) → f = s.controller.failure f.kind
  headers : s.controller.stream.isSome = s.controller.headersReceivedAt.isSome
  output : ∀ entry ∈ s.log, ∀ chunk, entry.2 = .ok chunk → isModelOutput chunk.kind →
    s.controller.firstModelEventAt.isSome
  calls : ∀ entry ∈ s.log, entry.1 < s.nexts
  attached : ∀ x, s.controller.stream = some x → x < s.attaches
  closed : ∀ x ∈ s.closes, x < s.attaches
  once : s.closes.Nodup
  used : s.closeOnce ≠ .unused → s.controller.stream.isSome
  unused : s.closeOnce = .unused → ∀ x, s.controller.stream = some x → x ∉ s.closes
  done : s.closeOnce = .done → ∀ x, s.controller.stream = some x → x ∈ s.closes

open Shared

/-- The controller is terminal and its stream, if there is one, is closed. -/
def Shared.Through (s : Shared ι ε) : Prop :=
  s.controller.terminalErr.isSome ∧ ∀ x, s.controller.stream = some x → x ∈ s.closes

def After.call : After ε → Option ℕ
  | .next call _ => some call
  | _ => none

/-- A call in `closeAttached`. -/
def Shared.Closing (s : Shared ι ε) (after : After ε) : Prop :=
  s.controller.terminalErr.isSome ∧ ∀ call ∈ after.call, call < s.nexts

/-- What a goroutine knows. -/
def Shared.Knows (i : ι) (s : Shared ι ε) : Phase ε → Prop
  | .idle .nothing | .idle (.attached _) => True
  | .idle (.rejected x _) => x ∈ s.closes
  | .idle (.done made) | .idle (.closed made _) => made → s.Through
  | .rejecting x _ => x < s.attaches ∧ x ∉ s.closes ∧ s.controller.stream ≠ some x
  | .waiting call | .entered call | .reading call | .read call _ | .judged call _
  | .observing call _ => call < s.nexts
  | .ending call cause _ => call < s.nexts ∧ ∀ f, cause ≠ .failure f
  | .closing _ after => s.Closing after
  | .releasing _ after x => s.Closing after ∧ s.controller.stream = some x
  | .inClose _ after x => s.Closing after ∧ s.controller.stream = some x ∧
      s.closeOnce = .running i ∧ x ∉ s.closes
  | .leavingClose _ after _ => s.Closing after ∧ s.closeOnce = .running i ∧
      ∀ x, s.controller.stream = some x → x ∈ s.closes

/-- Two calls of `Attach` reject two streams. -/
def Phase.Apart (phase other : Phase ε) : Prop :=
  ∀ x e y e', phase = .rejecting x e → other = .rejecting y e' → x ≠ y

theorem Shared.Knows.beyond {i : ι} {s : Shared ι ε} {phase : Phase ε} {call : ℕ}
    (h : s.Knows i phase) (hbeyond : phase.Beyond call) : call < s.nexts := by
  cases phase <;> simp_all [Knows,Phase.Beyond]

theorem Shared.Knows.of_beyond {i : ι} {s : Shared ι ε} {phase : Phase ε} {call : ℕ}
    (hcall : call < s.nexts) (hbeyond : phase.Beyond call) : s.Knows i phase := by
  cases phase <;> simp_all [Knows,Phase.Beyond]

theorem Shared.Knows.ending {i : ι} {s : Shared ι ε} {phase : Phase ε} (h : s.Knows i phase) :
    ∀ call cause cancellation, phase = .ending call cause cancellation → phase.Beyond call := by
  intro call cause cancellation hphase
  rw [hphase] at h ⊢
  exact ⟨rfl,h.2⟩

/-! `closeAttached` returns. -/

section Finish
variable (s : Shared ι ε) (made : Bool) (after : After ε)

@[simp] theorem finish_controller : (s.finish made after).1.controller = s.controller := by
  cases after <;> rfl

@[simp] theorem finish_closeOnce : (s.finish made after).1.closeOnce = s.closeOnce := by
  cases after <;> rfl

@[simp] theorem finish_attaches : (s.finish made after).1.attaches = s.attaches := by
  cases after <;> rfl

@[simp] theorem finish_nexts : (s.finish made after).1.nexts = s.nexts := by
  cases after <;> rfl

@[simp] theorem finish_closes : (s.finish made after).1.closes = s.closes := by
  cases after <;> rfl

theorem finish_log : (s.finish made after).1.log = s.log ∨
    ∃ call e, after = .next call e ∧ (s.finish made after).1.log = s.log ++ [(call,.error e)] := by
  cases after with
  | next call e => exact .inr ⟨call,e,rfl,rfl⟩
  | _ => exact .inl rfl

variable {s made after}

theorem finish_knows {i : ι} (hclosing : s.Closing after) (hthrough : s.Through) :
    (s.finish made after).1.Knows i (s.finish made after).2 := by
  cases after with
  | closeAgain => exact ⟨hclosing.1,nofun⟩
  | _ => exact fun _ => hthrough

end Finish

/-! What a move changes. -/

section Changes
variable {i : ι} {s s' : Shared ι ε} {phase phase' : Phase ε}

section
variable (h : Moved i s phase s' phase')
include h

theorem Moved.counters : s.attaches ≤ s'.attaches ∧ s.nexts ≤ s'.nexts := by
  cases h with
  | finishes | leaves => simp
  | _ => exact ⟨by simp [answer],by simp [answer]⟩

theorem Moved.closing : s'.closes = s.closes ∨
    (∃ x e, phase = .rejecting x e ∧ s'.closes = s.closes ++ [x]) ∨
    ∃ made after x, phase = .inClose made after x ∧ s'.closes = s.closes ++ [x] := by
  cases h with
  | discards x e => exact .inr (.inl ⟨x,e,rfl,rfl⟩)
  | closes err => exact .inr (.inr ⟨_,_,_,rfl,rfl⟩)
  | finishes | leaves => simp
  | _ => exact .inl rfl

theorem Moved.closeOnce : s'.closeOnce = s.closeOnce ∨
    (∃ made after x, phase = .releasing made after x ∧ s.closeOnce = .unused ∧
      s'.closeOnce = .running i) ∨
    ∃ made after err, phase = .leavingClose made after err ∧ s'.closeOnce = .done := by
  cases h with
  | claims hunused => exact .inr (.inl ⟨_,_,_,rfl,hunused,rfl⟩)
  | leaves halike => exact .inr (.inr ⟨_,_,_,rfl,by simp⟩)
  | finishes => simp
  | _ => exact .inl rfl

end

/-- A new stream is attached where there is none and the controller is not terminal. -/
structure Attached (s s' : Shared ι ε) : Prop where
  live : s.controller.terminalErr = none
  none : s.controller.stream = none
  stream : s'.controller.stream = some s.attaches
  headersReceivedAt : s'.controller.headersReceivedAt.isSome
  attaches : s'.attaches = s.attaches + 1
  closes : s'.closes = s.closes
  closeOnce : s'.closeOnce = s.closeOnce

section
variable (h : Moved i s phase s' phase')
include h

theorem Moved.stream : s'.controller.stream = s.controller.stream ∧
      s'.controller.headersReceivedAt = s.controller.headersReceivedAt ∨ Attached s s' := by
  cases h with
  | attaches reply now hlive hnone => exact .inr ⟨hlive,hnone,rfl,rfl,rfl,rfl,rfl⟩
  | observes hobs => exact .inl ⟨hobs.stream,hobs.headersReceivedAt⟩
  | replies reply halike => exact .inl ⟨halike.stream,halike.headersReceivedAt⟩
  | interrupts reply hended => exact .inl ⟨hended.stream,hended.headersReceivedAt⟩
  | ends hended => exact .inl ⟨hended.stream,hended.headersReceivedAt⟩
  | leaves halike => simp [halike.stream,halike.headersReceivedAt]
  | finishes => simp
  | _ => exact .inl ⟨rfl,rfl⟩

theorem Moved.record : s'.controller.terminalErr = s.controller.terminalErr ∧
      s'.controller.timeoutFailure = s.controller.timeoutFailure ∨
    ∃ cause, Ended s.controller cause s'.controller := by
  cases h with
  | observes hobs =>
    exact .inl ⟨hobs.terminalErr.trans hobs.live.symm,hobs.timeoutFailure⟩
  | replies reply halike => exact .inl ⟨halike.terminalErr,halike.timeoutFailure⟩
  | interrupts reply hended => exact .inr ⟨_,hended⟩
  | ends hended => exact .inr ⟨_,hended⟩
  | leaves halike => simp [halike.terminalErr,halike.timeoutFailure]
  | finishes => simp
  | _ => exact .inl ⟨rfl,rfl⟩

theorem Moved.output (hfirst : s.controller.firstModelEventAt.isSome) :
    s'.controller.firstModelEventAt.isSome := by
  cases h with
  | observes hobs => exact hobs.output (.inr hfirst)
  | replies reply halike => exact halike.firstModelEventAt ▸ hfirst
  | interrupts reply hended => exact hended.firstModelEventAt ▸ hfirst
  | ends hended => exact hended.firstModelEventAt ▸ hfirst
  | leaves halike => simpa [halike.firstModelEventAt] using hfirst
  | finishes => simpa using hfirst
  | _ => exact hfirst

theorem Moved.terminal {e : Cause ε} (hterm : s.controller.terminalErr = some e) :
    s'.controller.terminalErr = some e ∧
      s'.controller.timeoutFailure = s.controller.timeoutFailure ∧
      s'.controller.headersReceivedAt = s.controller.headersReceivedAt ∧
      s'.controller.firstModelEventAt = s.controller.firstModelEventAt := by
  have hdead : s.controller.terminalErr ≠ none := by simp [hterm]
  cases h with
  | attaches reply now hlive => exact absurd hlive hdead
  | observes hobs => exact absurd hobs.live hdead
  | interrupts reply hended => exact absurd hended.live hdead
  | ends hended => exact absurd hended.live hdead
  | replies reply halike =>
    exact ⟨halike.terminalErr.trans hterm,halike.timeoutFailure,halike.headersReceivedAt,
      halike.firstModelEventAt⟩
  | leaves halike =>
    simp [halike.terminalErr,halike.timeoutFailure,halike.headersReceivedAt,
      halike.firstModelEventAt,hterm]
  | finishes => simp [hterm]
  | _ => exact ⟨hterm,rfl,rfl,rfl⟩

theorem Moved.log : s'.log = s.log ∨ (∃ call e, s'.log = s.log ++ [(call,.error e)] ∧
      (phase.Beyond call ∧ s.controller.terminalErr.isSome ∨
        ∃ made, Released s made (.next call e) phase ∨
          ∃ err, phase = .leavingClose made (.next call e) err)) ∨
    ∃ call chunk, s'.log = s.log ++ [(call,.ok chunk)] ∧ phase = .observing call chunk ∧
      Observed s.controller chunk s'.controller := by
  cases h with
  | fails hbeyond hterm e => exact .inr (.inl ⟨_,e,rfl,.inl ⟨hbeyond,hterm⟩⟩)
  | observes hobs => exact .inr (.inr ⟨_,_,rfl,rfl,hobs⟩)
  | @finishes made after _ hrel =>
    rcases finish_log s made after with hsame | ⟨call,e,rfl,hlog⟩
    · exact .inl hsame
    · exact .inr (.inl ⟨call,e,hlog,.inr ⟨made,.inl hrel⟩⟩)
  | @leaves made after err c halike =>
    rcases finish_log { s with controller := c, closeOnce := .done } made after with
      hsame | ⟨call,e,rfl,hlog⟩
    · exact .inl hsame
    · exact .inr (.inl ⟨call,e,hlog,.inr ⟨made,.inr ⟨err,rfl⟩⟩⟩)
  | _ => exact .inl rfl

end
end Changes

/-! Every move keeps the invariant. -/

section Keeps
variable {i : ι} {s s' : Shared ι ε} {phase phase' : Phase ε}

theorem failure_congr {c c' : Controller ε} (hhdrs : c'.headersReceivedAt = c.headersReceivedAt)
    (hfirst : c'.firstModelEventAt = c.firstModelEventAt) (kind : TimeoutKind) :
    c'.failure kind = c.failure kind := by
  simp [Controller.failure,hhdrs,hfirst]

theorem Moved.failures (h : Moved i s phase s' phase') (hs : s.Sound) :
    (∀ f, s'.controller.timeoutFailure = some f → s'.controller.terminalErr = some (.failure f)) ∧
      ∀ f, s'.controller.terminalErr = some (.failure f) → f = s'.controller.failure f.kind := by
  cases hterm : s.controller.terminalErr with
  | some e =>
    obtain ⟨hterm',hfail,hhdrs,hfirst⟩ := h.terminal hterm
    rw [hterm',← hterm,hfail]
    refine ⟨hs.failed,fun f hf => ?_⟩
    rw [failure_congr hhdrs hfirst]
    exact hs.failure f hf
  | none =>
    rcases h.record with ⟨hterm',hfail⟩ | ⟨cause,hended⟩
    · rw [hterm',hterm,hfail]
      refine ⟨fun f hf => ?_,nofun⟩
      have hfailed := hs.failed f hf
      rw [hterm] at hfailed
      cases hfailed
    · rw [hended.terminalErr]
      rcases hended.failure with ⟨kind,rfl,hfail⟩ | ⟨hnone,hother⟩
      · rw [hfail]
        refine ⟨fun f hf => ?_,fun f hf => ?_⟩
        · cases hf
          rfl
        · cases hf
          exact (failure_congr hended.headersReceivedAt hended.firstModelEventAt kind).symm
      · rw [hnone]
        exact ⟨nofun,fun f hf => absurd (Option.some.inj hf) (hother f)⟩

theorem Shared.Knows.released {made : Bool} {after : After ε} (hk : s.Knows i phase)
    (h : Released s made after phase) : s.Closing after := by
  cases h with
  | none hnone => exact hk
  | done hdone stream => exact hk.1

section
variable (h : Moved i s phase s' phase')
include h

theorem Moved.calls (hs : s.Sound) (hk : s.Knows i phase) :
    ∀ entry ∈ s'.log, entry.1 < s'.nexts := by
  have hgrows := h.counters.2
  have hold : ∀ entry ∈ s.log, entry.1 < s'.nexts := fun entry hentry =>
    (hs.calls entry hentry).trans_le hgrows
  rcases h.log with hsame | ⟨call,e,hlog,hwhy⟩ | ⟨call,chunk,hlog,rfl,-⟩
  · rw [hsame]
    exact hold
  · rw [hlog,forall_mem_append,forall_mem_singleton]
    refine ⟨hold,lt_of_lt_of_le ?_ hgrows⟩
    rcases hwhy with ⟨hbeyond,-⟩ | ⟨made,hrel | ⟨err,rfl⟩⟩
    · exact hk.beyond hbeyond
    · exact (hk.released hrel).2 call rfl
    · exact hk.1.2 call rfl
  · rw [hlog,forall_mem_append,forall_mem_singleton]
    exact ⟨hold,lt_of_lt_of_le hk hgrows⟩

theorem Moved.outputs (hs : s.Sound) :
    ∀ entry ∈ s'.log, ∀ chunk, entry.2 = .ok chunk → isModelOutput chunk.kind →
      s'.controller.firstModelEventAt.isSome := by
  have hold : ∀ entry ∈ s.log, ∀ chunk, entry.2 = .ok chunk → isModelOutput chunk.kind →
      s'.controller.firstModelEventAt.isSome :=
    fun entry hentry chunk hok hkind => h.output (hs.output entry hentry chunk hok hkind)
  rcases h.log with hsame | ⟨call,e,hlog,-⟩ | ⟨call,chunk,hlog,-,hobs⟩
  · rw [hsame]
    exact hold
  · rw [hlog,forall_mem_append,forall_mem_singleton]
    refine ⟨hold,fun chunk' hok => ?_⟩
    cases hok
  · rw [hlog,forall_mem_append,forall_mem_singleton]
    refine ⟨hold,fun chunk' hok hkind => ?_⟩
    cases hok
    exact hobs.output (.inl hkind)

theorem Moved.closed (hs : s.Sound) (hk : s.Knows i phase) :
    (∀ x ∈ s'.closes, x < s'.attaches) ∧ s'.closes.Nodup := by
  have hold : ∀ x ∈ s.closes, x < s'.attaches := fun x hx => (hs.closed x hx).trans_le h.counters.1
  have hadd : ∀ x, x < s.attaches → x ∉ s.closes → s'.closes = s.closes ++ [x] →
      (∀ x ∈ s'.closes, x < s'.attaches) ∧ s'.closes.Nodup := by
    intro x hlt hfresh hcloses
    rw [hcloses,forall_mem_append,forall_mem_singleton]
    refine ⟨⟨hold,hlt.trans_le h.counters.1⟩,?_⟩
    rw [nodup_append]
    refine ⟨hs.once,nodup_singleton _,fun y hy z hz hyz => ?_⟩
    rw [mem_singleton.mp hz] at hyz
    exact hfresh (hyz ▸ hy)
  rcases h.closing with hsame | ⟨x,e,rfl,hcloses⟩ | ⟨made,after,x,rfl,hcloses⟩
  · rw [hsame]
    exact ⟨hold,hs.once⟩
  · exact hadd x hk.1 hk.2.1 hcloses
  · exact hadd x (hs.attached x hk.2.1) hk.2.2.2 hcloses

theorem Moved.closes_mono : s.closes ⊆ s'.closes := by
  rcases h.closing with hsame | ⟨x,e,-,hcloses⟩ | ⟨made,after,x,-,hcloses⟩
  · exact hsame ▸ Subset.refl _
  · exact hcloses ▸ subset_append_left _ _
  · exact hcloses ▸ subset_append_left _ _

section
variable (hs : s.Sound) (hk : s.Knows i phase)
include hs hk

theorem Moved.closeFacts : (s'.closeOnce ≠ .unused → s'.controller.stream.isSome) ∧
      (s'.closeOnce = .unused → ∀ x, s'.controller.stream = some x → x ∉ s'.closes) ∧
      (s'.closeOnce = .done → ∀ x, s'.controller.stream = some x → x ∈ s'.closes) := by
  have hmono := h.closes_mono
  rcases h.stream with ⟨hstream,-⟩ | hattached
  · rw [hstream]
    rcases h.closeOnce with hsame | ⟨made,after,x,rfl,hunused,hrun⟩ | ⟨made,after,err,rfl,hdone⟩
    · rw [hsame]
      refine ⟨hs.used,fun hunused x hx => ?_,fun hdone x hx => hmono (hs.done hdone x hx)⟩
      have hfresh := hs.unused hunused x hx
      rcases h.closing with hkept | ⟨y,e,rfl,hcloses⟩ | ⟨made,after,y,rfl,hcloses⟩
      · exact hkept ▸ hfresh
      · rw [hcloses,mem_append,mem_singleton]
        rintro (hmem | rfl)
        · exact hfresh hmem
        · exact hk.2.2 hx
      · have hrun := hk.2.2.1
        rw [hunused] at hrun
        cases hrun
    · rw [hrun]
      exact ⟨fun _ => hk.2 ▸ rfl,nofun,nofun⟩
    · rw [hdone]
      refine ⟨fun _ => hs.used ?_,nofun,fun _ x hx => hmono (hk.2.2 x hx)⟩
      rw [hk.2.1]
      nofun
  · -- the new stream has a new number, and `closeOnce` is still unused
    have hunused : s.closeOnce = .unused := by
      by_contra hne
      have hsome := hs.used hne
      rw [hattached.none] at hsome
      cases hsome
    rw [hattached.closeOnce,hunused,hattached.stream,hattached.closes]
    refine ⟨fun _ => rfl,fun _ x hx hmem => ?_,nofun⟩
    cases hx
    exact lt_irrefl _ (hs.closed _ hmem)

theorem Moved.sound : s'.Sound := by
  obtain ⟨hfailed,hfail⟩ := h.failures hs
  obtain ⟨hclosed,honce⟩ := h.closed hs hk
  obtain ⟨hused,hunused,hdone⟩ := h.closeFacts hs hk
  refine ⟨hfailed,hfail,?_,h.outputs hs,h.calls hs hk,?_,hclosed,honce,hused,hunused,hdone⟩
  · rcases h.stream with ⟨hstream,hhdrs⟩ | hattached
    · rw [hstream,hhdrs]
      exact hs.headers
    · rw [hattached.stream,hattached.headersReceivedAt]
      rfl
  · intro x hx
    rcases h.stream with ⟨hstream,-⟩ | hattached
    · exact (hs.attached x (hstream ▸ hx)).trans_le h.counters.1
    · rw [hattached.stream] at hx
      cases hx
      rw [hattached.attaches]
      exact Nat.lt_succ_self _

theorem Moved.own : s'.Knows i phase' := by
  cases h with
  | stays => exact hk
  | rejects reply e =>
    refine ⟨Nat.lt_succ_self _,fun hmem => lt_irrefl _ (hs.closed _ hmem),fun hstream => ?_⟩
    exact lt_irrefl _ (hs.attached _ hstream)
  | attaches reply now hlive hnone => trivial
  | discards x e => exact mem_append_right _ mem_cons_self
  | begins reply => exact Nat.lt_succ_self _
  | locks call => exact hk
  | enters hlive hbeyond => exact .of_beyond hk hbeyond
  | goes hbeyond hbeyond' => exact .of_beyond (hk.beyond hbeyond) hbeyond'
  | meets hwhere hterm =>
    refine ⟨hterm ▸ rfl,fun call hcall => ?_⟩
    cases hcall
    rcases hwhere with rfl | hbeyond
    · exact hk
    · exact hk.beyond hbeyond
  | fails hbeyond hterm e => exact fun hmade => nomatch hmade
  | observes hobs => exact fun hmade => nomatch hmade
  | replies reply halike => exact fun hmade => nomatch hmade
  | @interrupts reply cause c hended after hafter =>
    refine ⟨hended.terminalErr ▸ rfl,fun call hcall => ?_⟩
    cases after with
    | next call' e => exact absurd rfl (hafter call' e)
    | _ => cases hcall
  | ends hended =>
    refine ⟨hended.terminalErr ▸ rfl,fun call hcall => ?_⟩
    cases hcall
    exact hk.1
  | closesAgain reply hterm => exact ⟨hterm,fun call hcall => nomatch hcall⟩
  | finishes hrel =>
    apply finish_knows (hk.released hrel)
    refine ⟨(hk.released hrel).1,fun x hx => ?_⟩
    cases hrel with
    | none hnone =>
      rw [hnone] at hx
      cases hx
    | done hdone stream => exact hs.done hdone x hx
  | finds hstream => exact ⟨hk,hstream⟩
  | claims hunused => exact ⟨hk.1,hk.2,rfl,hs.unused hunused _ hk.2⟩
  | closes err =>
    obtain ⟨hclosing,hstream,hrun,-⟩ := hk
    refine ⟨hclosing,hrun,fun x hx => ?_⟩
    have hx : s.controller.stream = some x := hx
    rw [hstream] at hx
    cases hx
    exact mem_append_right _ mem_cons_self
  | @leaves made after err c halike =>
    obtain ⟨hclosing,-,hclosed⟩ := hk
    have hterm : c.terminalErr.isSome := halike.terminalErr ▸ hclosing.1
    have hclosing' : Closing { s with controller := c, closeOnce := .done } after :=
      ⟨hterm,hclosing.2⟩
    apply finish_knows hclosing'
    exact ⟨hterm,fun x hx => hclosed x (halike.stream ▸ hx)⟩

end

/-- What was terminal is so with the same stream, and closed streams stay closed. -/
theorem Moved.through (hterm : s.controller.terminalErr.isSome) :
    s'.controller.terminalErr.isSome ∧ s'.controller.stream = s.controller.stream := by
  obtain ⟨e,he⟩ := Option.isSome_iff_exists.mp hterm
  refine ⟨(h.terminal he).1 ▸ rfl,?_⟩
  rcases h.stream with ⟨hstream,-⟩ | hattached
  · exact hstream
  · have hlive := hattached.live
    rw [he] at hlive
    cases hlive

theorem Moved.closing_mono {after : After ε} (hclosing : s.Closing after) : s'.Closing after :=
  ⟨(h.through hclosing.1).1,fun call hcall => (hclosing.2 call hcall).trans_le h.counters.2⟩

theorem Moved.through_mono (hthrough : s.Through) : s'.Through := by
  obtain ⟨hterm,hstream⟩ := h.through hthrough.1
  exact ⟨hterm,fun x hx => h.closes_mono (hthrough.2 x (hstream ▸ hx))⟩

/-- `closeOnce` belongs to the goroutine that runs it. -/
theorem Moved.running (hk : s.Knows i phase) {j : ι} (hne : j ≠ i)
    (hrun : s.closeOnce = .running j) : s'.closeOnce = .running j := by
  rcases h.closeOnce with hsame | ⟨made,after,x,rfl,hunused,-⟩ | ⟨made,after,err,rfl,-⟩
  · exact hsame.trans hrun
  · rw [hrun] at hunused
    cases hunused
  · have hown := hk.2.1
    rw [hrun,Once.running.injEq] at hown
    exact absurd hown hne

theorem Moved.other (hk : s.Knows i phase) {j : ι}
    (hne : j ≠ i) {other : Phase ε} (hother : s.Knows j other) (hapart : phase.Apart other) :
    s'.Knows j other := by
  cases other with
  | idle reply =>
    cases reply with
    | nothing => trivial
    | attached x => trivial
    | rejected x e => exact h.closes_mono hother
    | done made => exact fun hmade => h.through_mono (hother hmade)
    | closed made err => exact fun hmade => h.through_mono (hother hmade)
  | rejecting x e =>
    obtain ⟨hlt,hfresh,hstream⟩ := hother
    refine ⟨hlt.trans_le h.counters.1,?_,?_⟩
    · rcases h.closing with hsame | ⟨y,e',rfl,hcloses⟩ | ⟨made,after,y,rfl,hcloses⟩
      · exact hsame ▸ hfresh
      · rw [hcloses,mem_append,mem_singleton]
        rintro (hmem | rfl)
        · exact hfresh hmem
        · exact hapart _ _ _ _ rfl rfl rfl
      · rw [hcloses,mem_append,mem_singleton]
        rintro (hmem | rfl)
        · exact hfresh hmem
        · exact hstream hk.2.1
    · rcases h.stream with ⟨hsame,-⟩ | hattached
      · rw [hsame]
        exact hstream
      · rw [hattached.stream,Ne,Option.some.injEq]
        exact Nat.ne_of_gt hlt
  | waiting call | entered call | reading call | read call result | judged call result
  | observing call chunk => exact lt_of_lt_of_le hother h.counters.2
  | ending call cause cancellation => exact ⟨hother.1.trans_le h.counters.2,hother.2⟩
  | closing made after => exact h.closing_mono hother
  | releasing made after x =>
    exact ⟨h.closing_mono hother.1,(h.through hother.1.1).2.trans hother.2⟩
  | inClose made after x =>
    obtain ⟨hclosing,hstream,hrun,hfresh⟩ := hother
    refine ⟨h.closing_mono hclosing,(h.through hclosing.1).2.trans hstream,h.running hk hne hrun,?_⟩
    rcases h.closing with hsame | ⟨y,e',rfl,hcloses⟩ | ⟨made,after,y,rfl,hcloses⟩
    · exact hsame ▸ hfresh
    · rw [hcloses,mem_append,mem_singleton]
      rintro (hmem | rfl)
      · exact hfresh hmem
      · exact hk.2.2 hstream
    · have hown := hk.2.2.1
      rw [hrun,Once.running.injEq] at hown
      exact absurd hown hne
  | leavingClose made after err =>
    obtain ⟨hclosing,hrun,hclosed⟩ := hother
    refine ⟨h.closing_mono hclosing,h.running hk hne hrun,fun x hx => ?_⟩
    exact h.closes_mono (hclosed x ((h.through hclosing.1).2 ▸ hx))

end

theorem Phase.Apart.symm (h : phase.Apart phase') : phase'.Apart phase :=
  fun x e y e' hx hy => (h y e' x e hy hx).symm

theorem Moved.apart (h : Moved i s phase s' phase') {j : ι} {other : Phase ε}
    (hother : s.Knows j other) (hapart : phase.Apart other) : phase'.Apart other := by
  intro x e y e' hx hy
  cases h with
  | stays => exact hapart x e y e' hx hy
  | rejects reply e =>
    cases hx
    rw [hy] at hother
    exact Nat.ne_of_gt hother.1
  | @enters call phase hlive hbeyond =>
    rw [hx] at hbeyond
    cases hbeyond
  | goes hbeyond hbeyond' =>
    rw [hx] at hbeyond'
    cases hbeyond'
  | @finishes made after => cases after <;> cases hx
  | @leaves made after => cases after <;> cases hx
  | _ => cases hx

theorem timeoutMoves_keeps : Keeps (timeoutMoves : Moves ι (Move ε) (Shared ι ε) (Phase ε))
    Sound (fun i s phase => s.Knows i phase) Phase.Apart := by
  refine ⟨?_,?_,?_⟩
  · exact fun a b hab => hab.symm
  · intro i m s phase hs hk
    have hmoved := moved i m s phase hk.ending
    exact ⟨hmoved.sound hs hk,hmoved.own hs hk⟩
  · intro i m s phase j other hne hs hk hother hapart
    have hmoved := moved i m s phase hk.ending
    exact ⟨hmoved.other hk hne hother hapart,hmoved.apart hother hapart⟩

end Keeps
end Streaming.Timeout
