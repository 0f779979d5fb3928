/-
# Handing audio over

Producers and readers share one slot and take their steps in any order: a
producer fills its own frame, then commits it, and a reader takes a snapshot.
A frame that is filled stays unseen until its commit, and the commit puts both
channels into the slot at once. So a snapshot holds the frame of the commit
before it, whole, and is fresh as long as no other snapshot came between; and
a producer goes on from its own last frame, whatever the others published.

The steps that were taken are listed with the latest first.

Key definitions: `HandoffEvent`, `commits`, `Exchange.Step`, `Exchange.Run`,
`Exchange.Explains`.
Key theorems: `Exchange.Explains.step`, `Exchange.Run.explains`,
`Exchange.Run.accords`, `snapshots_hold_the_last_publish`.
-/
import AudioShader.Signal.SharedAudio

namespace AudioShader

variable {α : Type}

/-! ### Steps -/

/-- A step that was taken, with what was seen in it. -/
inductive HandoffEvent (α : Type) where
  | joined
  /-- The producer found its frame as `found` and left it as `left`. -/
  | filled (producer : Nat) (found left : AudioFrame α)
  | committed (producer : Nat) (frame : AudioFrame α)
  | taken (reader : Nat) (snapshot : AudioSnapshot α)

namespace HandoffEvent

/-- The frame of a commit, with its producer. -/
def commit? : HandoffEvent α → Option (Nat × AudioFrame α)
  | .committed i frame => some (i, frame)
  | _ => none

/-- The producer that took the step. -/
def producer? : HandoffEvent α → Option Nat
  | .filled i _ _ => some i
  | .committed i _ => some i
  | _ => none

end HandoffEvent

/-- The frames that were committed, each with its producer. -/
def commits (past : List (HandoffEvent α)) : List (Nat × AudioFrame α) :=
  past.filterMap HandoffEvent.commit?

/-- A frame with two channels of `len` samples. -/
def AudioFrame.Spans (f : AudioFrame α) (len : Nat) : Prop :=
  f.left.length = len ∧ f.right.length = len

/-- A producer, and whether it has filled its frame and not committed it yet. -/
structure Publisher (α : Type) where
  producer : AudioProducer α
  filled : Bool

/-- A slot with its producers. -/
structure Exchange (α : Type) where
  slot : SharedAudio α
  publishers : List (Publisher α)

namespace Exchange

variable [Zero α]

def new (len : Nat) : Exchange α := ⟨.new len, []⟩

/-- What can happen next. A producer fills the two channels as it likes, but
cannot make them longer or shorter. -/
inductive Step (x : Exchange α) : HandoffEvent α → Exchange α → Prop
  | join : Step x .joined { x with publishers := x.publishers ++ [⟨x.slot.producer, false⟩] }
  | fill {i : Nat} {p : AudioProducer α} (f : AudioFrame α → AudioFrame α) :
      x.publishers[i]? = some ⟨p, false⟩ →
      (f p.staging).left.length = p.staging.left.length →
      (f p.staging).right.length = p.staging.right.length →
      Step x (.filled i p.staging (p.fill f).staging)
        { x with publishers := x.publishers.set i ⟨p.fill f, true⟩ }
  | commit {i : Nat} {p : AudioProducer α} :
      x.publishers[i]? = some ⟨p, true⟩ →
      Step x (.committed i p.staging) ⟨x.slot.commit p, x.publishers.set i ⟨p, false⟩⟩
  | take (reader : Nat) :
      Step x (.taken reader x.slot.snapshot.1) { x with slot := x.slot.snapshot.2 }

/-- The steps taken since a slot of `len` samples was set up, and where they
led. -/
inductive Run (len : Nat) : List (HandoffEvent α) → Exchange α → Prop
  | new : Run len [] (new len)
  | step {past : List (HandoffEvent α)} {x x' : Exchange α} {e : HandoffEvent α} :
      Run len past x → x.Step e x' → Run len (e :: past) x'

end Exchange

/-! ### What the steps so far tell -/

/-- The latest step with `p` has had no step with `stale` after it. -/
def Latest (p stale : HandoffEvent α → Prop) (past : List (HandoffEvent α)) : Prop :=
  ∃ recent e older, past = recent ++ e :: older ∧ p e ∧ ∀ e' ∈ recent, ¬ stale e'

theorem latest_cons {p stale : HandoffEvent α → Prop} {e : HandoffEvent α}
    {past : List (HandoffEvent α)} :
    Latest p stale (e :: past) ↔ p e ∨ (¬ stale e ∧ Latest p stale past) := by
  constructor
  · rintro ⟨recent, e', older, heq, hp, hrecent⟩
    cases recent with
    | nil =>
      obtain ⟨rfl, -⟩ := List.cons.inj heq
      exact .inl hp
    | cons first recent =>
      obtain ⟨rfl, rfl⟩ := List.cons.inj heq
      obtain ⟨hfirst, hrest⟩ := List.forall_mem_cons.1 hrecent
      exact .inr ⟨hfirst, recent, e', older, rfl, hp, hrest⟩
  · rintro (hp | ⟨hfirst, recent, e', older, rfl, hp, hrecent⟩)
    · exact ⟨[], e, past, rfl, hp, by simp⟩
    · exact ⟨e :: recent, e', older, rfl, hp, List.forall_mem_cons.2 ⟨hfirst, hrecent⟩⟩

/-- There was a commit, and no snapshot since. -/
def Unread : List (HandoffEvent α) → Prop :=
  Latest (fun e => ∃ i frame, e = .committed i frame) fun e => ∃ reader s, e = .taken reader s

/-- A fill of the producer left `frame`, and the producer took no step since. -/
def Filled (i : Nat) (frame : AudioFrame α) : List (HandoffEvent α) → Prop :=
  Latest (fun e => ∃ found, e = .filled i found frame) fun e => e.producer? = some i

section

variable {i : Nat} {past : List (HandoffEvent α)} {e : HandoffEvent α}

theorem Filled.cons {frame : AudioFrame α} (h : Filled i frame past) (he : e.producer? ≠ some i) :
    Filled i frame (e :: past) :=
  latest_cons.2 (.inr ⟨he, h⟩)

theorem lookup_commits_cons (he : e.producer? ≠ some i) :
    (commits (e :: past)).lookup i = (commits past).lookup i := by
  cases e with
  | committed j frame =>
    have hne : i ≠ j := fun hij => he (hij ▸ rfl)
    show List.lookup i ((j, frame) :: commits past) = _
    rw [List.lookup_cons, beq_false_of_ne hne]
  | _ => rfl

end

variable [Zero α]

/-- The frame that was committed last. -/
def lastPublished (len : Nat) (past : List (HandoffEvent α)) : AudioFrame α :=
  ((commits past).head?.map Prod.snd).getD (.silent len)

/-- The frame that a producer committed last. -/
def lastPublishedBy (len i : Nat) (past : List (HandoffEvent α)) : AudioFrame α :=
  ((commits past).lookup i).getD (.silent len)

theorem spans_silent (len : Nat) : (AudioFrame.silent len : AudioFrame α).Spans len := by
  simp [AudioFrame.Spans, AudioFrame.silent]

/-- What a step saw agrees with the steps before it. -/
def Accords (len : Nat) (past : List (HandoffEvent α)) : HandoffEvent α → Prop
  | .joined => True
  | .filled i found left => found = lastPublishedBy len i past ∧ left.Spans len
  | .committed i frame => Filled i frame past ∧ frame.Spans len
  | .taken _ s => s.frame = lastPublished len past ∧ s.frame.Spans len ∧
      (s.fresh = true ↔ Unread past)

/-! ### One step -/

section

variable {len i : Nat} {past : List (HandoffEvent α)} {e : HandoffEvent α}

theorem lastPublishedBy_committed_self (frame : AudioFrame α) :
    lastPublishedBy len i (.committed i frame :: past) = frame := by
  show ((List.lookup i ((i, frame) :: commits past)).getD _) = _
  rw [List.lookup_cons_self, Option.getD_some]

/-- What the steps so far tell of the place of one producer, which may not have
joined yet. -/
def Known (len : Nat) (past : List (HandoffEvent α)) (i : Nat) : Option (Publisher α) → Prop
  | none => (commits past).lookup i = none
  | some ⟨p, false⟩ => p.staging.Spans len ∧ p.staging = lastPublishedBy len i past
  | some ⟨p, true⟩ => p.staging.Spans len ∧ Filled i p.staging past

/-- A producer's place stays as it was when others take a step. -/
theorem Known.cons {u : Option (Publisher α)} (h : Known len past i u)
    (he : e.producer? ≠ some i) : Known len (e :: past) i u := by
  match u, h with
  | none, h => exact (lookup_commits_cons he).trans h
  | some ⟨p, false⟩, ⟨hspans, hlast⟩ =>
    refine ⟨hspans, ?_⟩
    rw [hlast, lastPublishedBy, lastPublishedBy, lookup_commits_cons he]
  | some ⟨p, true⟩, ⟨hspans, hfilled⟩ => exact ⟨hspans, hfilled.cons he⟩

end

namespace Exchange

variable {len : Nat} {past : List (HandoffEvent α)} {x x' : Exchange α} {e : HandoffEvent α}

/-- The steps so far tell all that the slot and the producers hold. -/
structure Explains (len : Nat) (past : List (HandoffEvent α)) (x : Exchange α) : Prop where
  frame : x.slot.frame = lastPublished len past
  spans : x.slot.frame.Spans len
  fresh : x.slot.fresh = true ↔ Unread past
  known : ∀ i, Known len past i x.publishers[i]?

theorem explains_new (len : Nat) : Explains len [] (new len : Exchange α) where
  frame := rfl
  spans := spans_silent len
  fresh := by simp [new, SharedAudio.new, Unread, Latest]
  known _ := rfl

namespace Explains

/-- What is seen in the next step follows from the steps so far. -/
theorem accords (h : x.Explains len past) (hstep : x.Step e x') : Accords len past e := by
  cases hstep with
  | join => trivial
  | fill f hp hleft hright =>
    obtain ⟨⟨hl, hr⟩, hlast⟩ := hp ▸ h.known _
    exact ⟨hlast, hleft.trans hl, hright.trans hr⟩
  | commit hp =>
    obtain ⟨hspans, hfilled⟩ := hp ▸ h.known _
    exact ⟨hfilled, hspans⟩
  | take reader => exact ⟨h.frame, h.spans, h.fresh⟩

theorem step (h : x.Explains len past) (hstep : x.Step e x') : x'.Explains len (e :: past) := by
  cases hstep with
  | join =>
    have hlen : x.slot.len = len := h.spans.1
    refine ⟨h.frame, h.spans, by simpa [Unread, latest_cons] using h.fresh, fun j => ?_⟩
    rcases Nat.lt_trichotomy j x.publishers.length with hj | rfl | hj
    · rw [List.getElem?_append_left hj]
      exact (h.known j).cons nofun
    · have hnone := h.known x.publishers.length
      rw [List.getElem?_eq_none (Nat.le_refl _)] at hnone
      rw [List.getElem?_concat_length]
      refine ⟨hlen ▸ spans_silent _, ?_⟩
      show AudioFrame.silent x.slot.len = ((commits past).lookup _).getD _
      rw [hnone, hlen, Option.getD_none]
    · have hnone := h.known j
      rw [List.getElem?_eq_none (Nat.le_of_lt hj)] at hnone
      rw [List.getElem?_eq_none (by simpa using Nat.succ_le_of_lt hj)]
      exact hnone
  | @fill i p f hp hleft hright =>
    obtain ⟨⟨hl, hr⟩, -⟩ := hp ▸ h.known _
    refine ⟨h.frame, h.spans, by simpa [Unread, latest_cons] using h.fresh, fun j => ?_⟩
    by_cases hj : i = j
    · subst hj
      rw [List.getElem?_set_self (List.getElem?_eq_some_iff.1 hp).1]
      exact ⟨⟨hleft.trans hl, hright.trans hr⟩, latest_cons.2 (.inl ⟨_, rfl⟩)⟩
    · rw [List.getElem?_set_ne hj]
      exact (h.known j).cons (by simpa [HandoffEvent.producer?] using hj)
  | @commit i p hp =>
    obtain ⟨hspans, -⟩ := hp ▸ h.known _
    refine ⟨rfl, hspans, ?_, fun j => ?_⟩
    · simp [SharedAudio.commit, Unread, latest_cons]
    by_cases hj : i = j
    · subst hj
      rw [List.getElem?_set_self (List.getElem?_eq_some_iff.1 hp).1]
      exact ⟨hspans, (lastPublishedBy_committed_self _).symm⟩
    · rw [List.getElem?_set_ne hj]
      exact (h.known j).cons (by simpa [HandoffEvent.producer?] using hj)
  | take reader =>
    refine ⟨h.frame, h.spans, ?_, fun j => (h.known j).cons nofun⟩
    simp [SharedAudio.snapshot, Unread, latest_cons]

end Explains

/-! ### Runs -/

theorem Run.explains (h : Run len past x) : x.Explains len past := by
  induction h with
  | new => exact explains_new len
  | step _ hstep ih => exact ih.step hstep

/-- Each step of a run agrees with the steps before it. -/
theorem Run.accords (h : Run len past x) {later earlier : List (HandoffEvent α)}
    (hpast : past = later ++ e :: earlier) : Accords len earlier e := by
  induction h generalizing later with
  | new => simp at hpast
  | step hrun hstep ih =>
    cases later with
    | nil =>
      obtain ⟨rfl, rfl⟩ := List.cons.inj hpast
      exact hrun.explains.accords hstep
    | cons last later => exact ih (List.cons.inj hpast).2

end Exchange

/-- However the steps of producers and readers come one after the other: a
snapshot holds both channels of the frame that was committed last, or silence,
at the common length, and is fresh exactly when a frame was committed since the
snapshot before it; a commit publishes the frame that this producer's last fill
left; and a fill starts from the frame that this producer published last, or
from silence. -/
theorem snapshots_hold_the_last_publish {len : Nat} {past : List (HandoffEvent α)}
    {x : Exchange α} (h : Exchange.Run len past x) :
    (∀ later reader s earlier, past = later ++ .taken reader s :: earlier →
      s.frame = lastPublished len earlier ∧ s.frame.Spans len ∧
        (s.fresh = true ↔ Unread earlier)) ∧
    (∀ later i frame earlier, past = later ++ .committed i frame :: earlier →
      Filled i frame earlier ∧ frame.Spans len) ∧
    (∀ later i found left earlier, past = later ++ .filled i found left :: earlier →
      found = lastPublishedBy len i earlier ∧ left.Spans len) :=
  ⟨fun _ _ _ _ hpast => h.accords hpast, fun _ _ _ _ hpast => h.accords hpast,
    fun _ _ _ _ _ hpast => h.accords hpast⟩

namespace Handoff

/-- Two producers fill before either commits, and two readers come between. -/
def crossing : List (HandoffEvent Float32) :=
  [.taken 0 ⟨⟨[1], [2]⟩, true⟩, .committed 0 ⟨[1], [2]⟩, .taken 1 ⟨⟨[3], [4]⟩, false⟩,
    .taken 0 ⟨⟨[3], [4]⟩, true⟩, .committed 1 ⟨[3], [4]⟩, .filled 1 ⟨[0], [0]⟩ ⟨[3], [4]⟩,
    .filled 0 ⟨[0], [0]⟩ ⟨[1], [2]⟩, .joined, .joined]

theorem run_crossing : Exchange.Run 1 crossing ⟨⟨⟨[1], [2]⟩, false⟩,
    [⟨⟨⟨[1], [2]⟩⟩, false⟩, ⟨⟨⟨[3], [4]⟩⟩, false⟩]⟩ := by
  have hnew : Exchange.Run 1 [] (.new 1 : Exchange Float32) := .new
  have hjoined := (hnew.step .join).step .join
  have hfilled := (hjoined.step (.fill (i := 0) (fun _ => ⟨[1], [2]⟩) rfl rfl rfl)).step
    (.fill (i := 1) (fun _ => ⟨[3], [4]⟩) rfl rfl rfl)
  have hsecond := ((hfilled.step (.commit (i := 1) rfl)).step (.take 0)).step (.take 1)
  exact (hsecond.step (.commit (i := 0) rfl)).step (.take 0)

/-- The snapshot between the two commits holds the second producer's frame. -/
theorem snapshot_of_crossing : ∃ later earlier,
    crossing = later ++ .taken 0 ⟨⟨[3], [4]⟩, true⟩ :: earlier ∧
      (⟨[3], [4]⟩ : AudioFrame Float32) = lastPublished 1 earlier ∧ Unread earlier := by
  refine ⟨crossing.take 3, crossing.drop 4, rfl, ?_⟩
  obtain ⟨hframe, -, hfresh⟩ :=
    (snapshots_hold_the_last_publish run_crossing).1 (crossing.take 3) 0 _ (crossing.drop 4) rfl
  exact ⟨hframe, hfresh.1 rfl⟩

end Handoff

end AudioShader
