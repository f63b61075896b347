import EventLog.Engine.Basic
import EventLog.Proofs.Engine.Inventory

/-!
# Ledgers

A ledger is an engine without its machinery: the inventory of its records, the stage that
it is at, and where the target went.  Its steps are those of an engine, in terms of lists
only.

`Ledger.Sound` says what all steps keep: every record is in one place, every accepted event
is in one place and in order, and there is one target, which was handed exactly the
delivered events.

Main results:

- `Ledger.sound_run`: every ledger of a run is sound.
- `Ledger.isGated_run`: events are accepted in the stages that say so, and in no others.
- `Ledger.stage_drain`: a worker that drains leaves nothing in the queue, unless it dies.
-/

namespace EventLog

/-! ## Handing events over -/

section HandingOver

variable {α δ : Type} [Payload α] [Target α δ]

/-- The target after it was handed an event with its line; `none` if rendering or
delivering the event does not return. -/
def handOver (a : α) (target : δ) : Option δ :=
  (Payload.render a).bind fun line => (Target.deliver a line target).map Prod.fst

/-- The target after it was handed events in order. -/
def handOverAll : List α → δ → Option δ
  | [], target => some target
  | a :: rest, target => (handOver a target).bind (handOverAll rest)

theorem handOverAll_append (as bs : List α) (target : δ) :
    handOverAll (as ++ bs) target = (handOverAll as target).bind (handOverAll bs) := by
  induction as generalizing target with
  | nil => rfl
  | cons a as ih =>
      cases h : handOver a target with
      | none => simp [handOverAll, h]
      | some t => simp [handOverAll, h, ih]

theorem handOverAll_concat {as : List α} {a : α} {target t u : δ}
    (has : handOverAll as target = some t) (ha : handOver a t = some u) :
    handOverAll (as ++ [a]) target = some u := by
  simp [handOverAll_append, has, handOverAll, ha]

end HandingOver

/-! ## Ledgers -/

/-- Where an engine stands. -/
inductive Stage (δ : Type) where
  | idle (target : δ)
  /-- The worker looks for the next event. -/
  | looking (target : δ)
  | holding (target : δ)
  /-- The worker did not survive the event that it held. -/
  | dead
  /-- No worker could be started. -/
  | failed
  | closed (target : Option δ)

namespace Stage

variable {δ : Type}

/-- The target, wherever the engine has it. -/
def target? : Stage δ → Option δ
  | idle target => some target
  | looking target => some target
  | holding target => some target
  | dead => none
  | failed => none
  | closed target => target

/-- Events are accepted at this stage.  An engine whose worker cannot be named goes on
accepting events. -/
def isOpen (config : Config) : Stage δ → Bool
  | failed => Config.zero ∈ config.workerName.toList
  | closed _ => false
  | _ => true

end Stage

/-- The inventory of an engine, its stage, and where its target went. -/
structure Ledger (α δ : Type) extends Inventory α where
  config : Config
  stage : Stage δ
  /-- The target, once it was lost. -/
  lost : Option δ := none
  returned : List δ := []

namespace Ledger

variable {α δ : Type}

/-! ## Calls -/

/-- The ledger of a new engine. -/
def new (config : Config) (target : δ) : Ledger α δ :=
  { Inventory.new config.poolCapacity with config, stage := .idle target }

/-- The next start does not return. -/
def isUnnamable (l : Ledger α δ) : Bool :=
  match l.stage with
  | .idle _ => Config.zero ∈ l.config.workerName.toList
  | _ => false

/-- The worker is started, unless the engine is past that. -/
def start (l : Ledger α δ) (spawnFault : Option IoFault) : Ledger α δ :=
  match l.stage with
  | .idle target =>
    if Config.zero ∈ l.config.workerName.toList then
      { l with stage := .failed, lost := some target }
    else
      match spawnFault with
      | none => { l with stage := .looking target }
      | some _ => { l with stage := .failed, lost := some target, accepting := false }
  | _ => l

/-- An event is offered, after a start that returns. -/
def enqueue (l : Ledger α δ) (spawnFault : Option IoFault) (a : α) : Ledger α δ :=
  if l.isUnnamable then
    { l.start spawnFault with unreturned := (l.start spawnFault).unreturned ++ [a] }
  else
    { l.start spawnFault with toInventory := (l.start spawnFault).toInventory.offer a }

/-- The target is taken back. -/
def takeTarget (l : Ledger α δ) : Ledger α δ :=
  match l.stage with
  | .closed (some target) =>
    { l with stage := .closed none, returned := l.returned ++ [target] }
  | _ => l

theorem start_of_ne_idle {l : Ledger α δ} (hidle : ∀ t, l.stage ≠ .idle t)
    (spawnFault : Option IoFault) : l.start spawnFault = l := by
  unfold start
  split
  next h => exact absurd h (hidle _)
  next => rfl

theorem isUnnamable_of_ne_idle {l : Ledger α δ} (hidle : ∀ t, l.stage ≠ .idle t) :
    l.isUnnamable = false := by
  unfold isUnnamable
  split
  next h => exact absurd h (hidle _)
  next => rfl

/-- A start that returns leaves the engine at a stage with a queue. -/
theorem stage_start_ne_idle {l : Ledger α δ} (hnamable : l.isUnnamable = false)
    (spawnFault : Option IoFault) (t : δ) : (l.start spawnFault).stage ≠ .idle t := by
  unfold start
  split
  next u hstage =>
    rw [isUnnamable, hstage] at hnamable
    rw [if_neg (by simpa using hnamable)]
    cases spawnFault <;> simp
  next hstage => exact hstage t

/-! ## What is offered -/

/-- A start changes the inventory in one respect only. -/
theorem toInventory_start (l : Ledger α δ) (fault : Option IoFault) :
    (l.start fault).toInventory =
      { l.toInventory with accepting := (l.start fault).accepting } := by
  unfold start
  split
  · split
    · rfl
    · cases fault <;> rfl
  · rfl

/-- A start keeps the settings and what was handed back. -/
theorem frame_start (l : Ledger α δ) (fault : Option IoFault) :
    (l.start fault).config = l.config ∧ (l.start fault).returned = l.returned := by
  unfold start
  split
  · split
    · exact ⟨rfl, rfl⟩
    · cases fault <;> exact ⟨rfl, rfl⟩
  · exact ⟨rfl, rfl⟩

/-- What becomes of an offered event: its call does not return, or it is accepted, or it is
refused. -/
theorem enqueue_cases (l : Ledger α δ) (fault : Option IoFault) (a : α) :
    (l.isUnnamable = true ∧ (l.enqueue fault a).accepted = l.accepted ∧
        (l.enqueue fault a).refused = l.refused ∧
        (l.enqueue fault a).unreturned = l.unreturned ++ [a]) ∨
      (l.isUnnamable = false ∧ (l.enqueue fault a).accepted = l.accepted ++ [a] ∧
        (l.enqueue fault a).refused = l.refused ∧
        (l.enqueue fault a).unreturned = l.unreturned) ∨
      (l.isUnnamable = false ∧ (l.enqueue fault a).accepted = l.accepted ∧
        (l.enqueue fault a).refused = l.refused ++ [a] ∧
        (l.enqueue fault a).unreturned = l.unreturned) := by
  have hstart := toInventory_start l fault
  have haccepted : (l.start fault).accepted = l.accepted := by rw [hstart]
  have hrefused : (l.start fault).refused = l.refused := by rw [hstart]
  have hunreturned : (l.start fault).unreturned = l.unreturned := by rw [hstart]
  unfold enqueue
  split
  next hname => exact Or.inl ⟨hname, haccepted, hrefused, by simp [hunreturned]⟩
  next hname =>
    have hnamable : l.isUnnamable = false := by simpa using hname
    have hsame : ((l.start fault).toInventory.offer a).unreturned = l.unreturned :=
      (Inventory.unreturned_offer _ a).trans hunreturned
    rcases Inventory.offer_cases (l.start fault).toInventory a with
      ⟨hoffer, -⟩ | ⟨-, hadded, hkept⟩
    · refine Or.inr (Or.inr ⟨hnamable, ?_, ?_, hsame⟩)
      · simp only [hoffer, Inventory.refuse, haccepted]
      · simp only [hoffer, Inventory.refuse, hrefused]
    · exact Or.inr (Or.inl ⟨hnamable, hadded.trans (by rw [haccepted]), hkept.trans hrefused,
        hsame⟩)

/-! ## Accepting -/

/-- Events are accepted at the stages that say so. -/
def IsGated (l : Ledger α δ) : Prop :=
  l.accepting = l.stage.isOpen l.config

/-- A start keeps the gate at the stage. -/
theorem isGated_start {l : Ledger α δ} (h : l.IsGated) (fault : Option IoFault) :
    (l.start fault).IsGated := by
  unfold start
  split
  next t hstage =>
    have haccepting : l.accepting = true := by rw [h, hstage]; rfl
    split
    next hname => simp [IsGated, Stage.isOpen, haccepting, hname]
    next hname =>
      cases fault with
      | none => simp [IsGated, Stage.isOpen, haccepting]
      | some cause => simp [IsGated, Stage.isOpen, hname]
  next => exact h

/-! ## Work -/

section Work

variable [Payload α] [Target α δ]

/-- The worker takes the oldest event. -/
def take (l : Ledger α δ) : Ledger α δ :=
  match l.stage, l.queued with
  | .looking target, (i, a) :: queued =>
    match Payload.render a with
    | none => { l with queued, held := (i, a) :: l.held, stage := .dead, lost := some target }
    | some _ => { l with queued, held := (i, a) :: l.held, stage := .holding target }
  | _, _ => l

/-- The worker delivers the event that it holds. -/
def deliver (l : Ledger α δ) : Ledger α δ :=
  match l.stage, l.held with
  | .holding target, (i, a) :: held =>
    match handOver a target with
    | none => { l with stage := .dead, lost := some target }
    | some target =>
      { l with
        free := i :: l.free, held, delivered := l.delivered ++ [a], stage := .looking target }
  | _, _ => l

section Equations

variable {l : Ledger α δ} {target u : δ} {i : Nat} {a : α} {line : Text} {queued : List (Nat × α)}

omit [Target α δ] in
theorem take_of_queued_nil (hqueued : l.queued = []) : l.take = l := by
  unfold take
  rw [hqueued]
  split
  next h => cases h
  next => rfl

omit [Target α δ] in
theorem take_of_ne_looking (hstage : ∀ t, l.stage ≠ .looking t) : l.take = l := by
  unfold take
  split
  next h _ => exact absurd h (hstage _)
  next => rfl

omit [Target α δ] in
theorem take_of_render_none (hstage : l.stage = .looking target)
    (hqueued : l.queued = (i, a) :: queued) (hrender : Payload.render a = none) :
    l.take =
      { l with queued, held := (i, a) :: l.held, stage := .dead, lost := some target } := by
  simp [take, hstage, hqueued, hrender]

omit [Target α δ] in
theorem take_of_render_some (hstage : l.stage = .looking target)
    (hqueued : l.queued = (i, a) :: queued) (hrender : Payload.render a = some line) :
    l.take = { l with queued, held := (i, a) :: l.held, stage := .holding target } := by
  simp [take, hstage, hqueued, hrender]

theorem deliver_of_ne_holding (hstage : ∀ t, l.stage ≠ .holding t) : l.deliver = l := by
  unfold deliver
  split
  next h _ => exact absurd h (hstage _)
  next => rfl

theorem deliver_of_handOver_none {held : List (Nat × α)} (hstage : l.stage = .holding target)
    (hheld : l.held = (i, a) :: held) (hhanded : handOver a target = none) :
    l.deliver = { l with stage := .dead, lost := some target } := by
  simp [deliver, hstage, hheld, hhanded]

theorem deliver_of_handOver_some {held : List (Nat × α)} (hstage : l.stage = .holding target)
    (hheld : l.held = (i, a) :: held) (hhanded : handOver a target = some u) :
    l.deliver =
      { l with
        free := i :: l.free, held, delivered := l.delivered ++ [a], stage := .looking u } := by
  simp [deliver, hstage, hheld, hhanded]

theorem queued_deliver (l : Ledger α δ) : l.deliver.queued = l.queued := by
  unfold deliver
  split
  · split <;> rfl
  · rfl

end Equations

/-- A number of events are taken and delivered, one after the other. -/
def drain : Nat → Ledger α δ → Ledger α δ
  | 0, l => l
  | fuel + 1, l => drain fuel l.take.deliver

/-- No more events are accepted; a target that has no worker yet gets one. -/
def close (l : Ledger α δ) : Ledger α δ :=
  { l with
    accepting := false
    stage := match l.stage with
      | .idle target => .looking target
      | stage => stage }

/-- The last work: the event that is held, and the queued ones if the settings say so. -/
def windDown (l : Ledger α δ) : Ledger α δ :=
  if l.config.drainOnShutdown then l.close.deliver.drain l.capacity else l.close.deliver

/-- The rest is discarded. -/
def conclude (l : Ledger α δ) : Ledger α δ :=
  { l with toInventory := l.toInventory.discardAll, stage := .closed l.stage.target? }

/-- The engine is shut down, unless it was before. -/
def shutdown (l : Ledger α δ) : Ledger α δ :=
  match l.stage with
  | .closed _ => l
  | _ => l.windDown.conclude

theorem shutdown_of_ne_closed {l : Ledger α δ} (hopen : ∀ t, l.stage ≠ .closed t) :
    l.shutdown = l.windDown.conclude := by
  unfold shutdown
  split
  next h => exact absurd h (hopen _)
  next => rfl

/-! ## Runs -/

/-- The ledger after one action. -/
def step (l : Ledger α δ) : Engine.Action α → Ledger α δ
  | .start spawnFault => l.start spawnFault
  | .enqueue spawnFault a => l.enqueue spawnFault a
  | .take => l.take
  | .deliver => l.deliver
  | .shutdown => l.shutdown
  | .takeTarget => l.takeTarget

/-- The ledger after actions in order. -/
def run (l : Ledger α δ) (actions : List (Engine.Action α)) : Ledger α δ :=
  actions.foldl step l

end Work

/-! ## Sound ledgers -/

section Soundness

variable [Payload α] [Target α δ]

/-- What is in the hands of a worker at a stage, and what is left of the rest. -/
def Fits (l : Ledger α δ) : Prop :=
  match l.stage with
  | .idle _ => l.queued = [] ∧ l.held = [] ∧ l.discarded = []
  | .looking _ => l.held = [] ∧ l.discarded = []
  | .holding _ => l.held.length = 1 ∧ l.discarded = []
  | .dead => l.held.length = 1 ∧ l.discarded = []
  | .failed => l.held = [] ∧ l.discarded = []
  | .closed _ => l.queued = [] ∧ l.held.length ≤ 1

/-- What the steps of an engine with this target keep. -/
structure Sound (l : Ledger α δ) (target : δ) : Prop where
  /-- Every record is counted in one place. -/
  places : l.free.length + (l.queued.length + l.held.length) = l.capacity
  /-- Every accepted event is in one place, the oldest first. -/
  flow : l.accepted =
    l.delivered ++ (l.held.map Prod.snd ++ (l.discarded ++ l.queued.map Prod.snd))
  fits : l.Fits
  /-- There is one target, and it was handed what was delivered. -/
  one_target : ∃ t, handOverAll l.delivered target = some t ∧
    l.stage.target?.toList ++ (l.lost.toList ++ l.returned) = [t]

variable {l : Ledger α δ} {target : δ}

theorem sound_new (config : Config) (target : δ) :
    (Ledger.new config target : Ledger α δ).Sound target where
  places := by simp [new, Inventory.new]
  flow := rfl
  fits := ⟨rfl, rfl, rfl⟩
  one_target := ⟨target, rfl, rfl⟩

/-- What is known of a target that the engine has. -/
theorem Sound.handed (h : l.Sound target) {t : δ} (ht : l.stage.target? = some t) :
    handOverAll l.delivered target = some t ∧ l.lost = none ∧ l.returned = [] := by
  rcases h.one_target with ⟨u, hhanded, hone⟩
  rw [ht] at hone
  simp only [Option.toList_some, List.singleton_append, List.cons.injEq, List.append_eq_nil_iff,
    Option.toList_eq_nil_iff] at hone
  rcases hone with ⟨rfl, hlost, hreturned⟩
  exact ⟨hhanded, hlost, hreturned⟩

/-- Before the shutdown nothing is discarded. -/
theorem Sound.discarded_of_open (h : l.Sound target) (hopen : ∀ t, l.stage ≠ .closed t) :
    l.discarded = [] := by
  have hfits := h.fits
  cases hstage : l.stage with
  | closed t => exact absurd hstage (hopen t)
  | idle t | looking t | holding t | dead | failed => simp_all [Fits]

/-! ### Calls -/

theorem sound_start (h : l.Sound target) (spawnFault : Option IoFault) :
    (l.start spawnFault).Sound target := by
  have hfits := h.fits
  unfold start
  split
  next t hstage =>
    rcases h.handed (by rw [hstage]; rfl) with ⟨hhanded, hlost, hreturned⟩
    simp only [Fits, hstage] at hfits
    have hfailed : (Stage.failed : Stage δ).target?.toList ++
        ((some t).toList ++ l.returned) = [t] := by
      simp [Stage.target?, hreturned]
    split
    · exact ⟨h.places, h.flow, hfits.2, t, hhanded, hfailed⟩
    · cases spawnFault with
      | none =>
          refine ⟨h.places, h.flow, hfits.2, t, hhanded, ?_⟩
          simp [Stage.target?, hlost, hreturned]
      | some cause => exact ⟨h.places, h.flow, hfits.2, t, hhanded, hfailed⟩
  next => exact h

/-- At a stage with a queue and with events accepted, offering an event keeps a ledger
sound. -/
theorem sound_offer (h : l.Sound target) (hidle : ∀ t, l.stage ≠ .idle t)
    (hclosed : l.accepting = true → ∀ t, l.stage ≠ .closed t) (a : α) :
    ({ l with toInventory := l.toInventory.offer a } : Ledger α δ).Sound target := by
  have hfits := h.fits
  have hplaces := h.places
  unfold Inventory.offer
  split
  next i free haccepting hfree =>
    rw [hfree, List.length_cons] at hplaces
    refine ⟨?_, ?_, ?_, h.one_target⟩
    · simp only [List.length_append, List.length_singleton]
      omega
    · simp [h.flow]
    · cases hstage : l.stage with
      | idle t => exact absurd hstage (hidle t)
      | closed t => exact absurd hstage (hclosed haccepting t)
      | looking t => simpa [Fits, hstage] using hfits
      | holding t => simpa [Fits, hstage] using hfits
      | dead => simpa [Fits, hstage] using hfits
      | failed => simpa [Fits, hstage] using hfits
  next => exact ⟨h.places, h.flow, h.fits, h.one_target⟩

theorem sound_takeTarget (h : l.Sound target) : l.takeTarget.Sound target := by
  have hfits := h.fits
  unfold takeTarget
  split
  next t hstage =>
    rcases h.handed (by rw [hstage]; rfl) with ⟨hhanded, hlost, hreturned⟩
    simp only [Fits, hstage] at hfits
    refine ⟨h.places, h.flow, hfits, t, hhanded, ?_⟩
    simp [Stage.target?, hlost, hreturned]
  next => exact h

/-! ### Work -/

theorem sound_take (h : l.Sound target) : l.take.Sound target := by
  have hfits := h.fits
  have hplaces := h.places
  have hflow := h.flow
  unfold take
  split
  next t i a queued hstage hqueued =>
    rcases h.handed (by rw [hstage]; rfl) with ⟨hhanded, hlost, hreturned⟩
    simp only [Fits, hstage] at hfits
    rcases hfits with ⟨hheld, hdiscarded⟩
    rw [hqueued, hheld] at hplaces hflow
    simp only [List.length_cons, List.length_nil] at hplaces
    split
    · refine ⟨?_, ?_, ⟨by simp [hheld], hdiscarded⟩, t, hhanded, ?_⟩
      · simp only [hheld, List.length_singleton]
        omega
      · simp [hflow, hheld, hdiscarded]
      · simp [Stage.target?, hreturned]
    · refine ⟨?_, ?_, ⟨by simp [hheld], hdiscarded⟩, t, hhanded, ?_⟩
      · simp only [hheld, List.length_singleton]
        omega
      · simp [hflow, hheld, hdiscarded]
      · simp [Stage.target?, hlost, hreturned]
  next => exact h

theorem sound_deliver (h : l.Sound target) : l.deliver.Sound target := by
  have hfits := h.fits
  have hplaces := h.places
  have hflow := h.flow
  unfold deliver
  split
  next t i a held hstage hheld =>
    rcases h.handed (by rw [hstage]; rfl) with ⟨hhanded, hlost, hreturned⟩
    simp only [Fits, hstage] at hfits
    split
    · refine ⟨h.places, h.flow, hfits, t, hhanded, ?_⟩
      simp [Stage.target?, hreturned]
    · rename_i u hu
      rw [hheld] at hfits hplaces hflow
      have hnil : held = [] := by simpa using hfits.1
      subst hnil
      refine ⟨?_, ?_, ⟨rfl, hfits.2⟩, u, handOverAll_concat hhanded hu, ?_⟩
      · simp only [List.length_cons, List.length_nil] at hplaces ⊢
        omega
      · simp [hflow]
      · simp [Stage.target?, hlost, hreturned]
  next => exact h

theorem sound_drain (h : l.Sound target) (fuel : Nat) : (l.drain fuel).Sound target := by
  induction fuel generalizing l with
  | zero => exact h
  | succ fuel ih => exact ih (sound_deliver (sound_take h))

theorem sound_close (h : l.Sound target) : l.close.Sound target := by
  have hfits := h.fits
  rcases h.one_target with ⟨t, hhanded, hone⟩
  cases hstage : l.stage with
  | idle u =>
      simp only [Fits, hstage] at hfits
      refine ⟨h.places, h.flow, ?_, t, hhanded, ?_⟩
      · simpa [Fits, close, hstage] using hfits.2
      · simpa [close, hstage, Stage.target?] using hone
  | looking u | holding u | dead | failed | closed u =>
      exact ⟨h.places, h.flow, by simpa [Fits, close, hstage] using hfits, t, hhanded,
        by simpa [close, hstage, Stage.target?] using hone⟩

theorem sound_windDown (h : l.Sound target) : l.windDown.Sound target := by
  unfold windDown
  split
  · exact sound_drain (sound_deliver (sound_close h)) _
  · exact sound_deliver (sound_close h)

theorem sound_conclude (h : l.Sound target) : l.conclude.Sound target where
  places := by
    have hplaces := h.places
    simp only [conclude, Inventory.discardAll, List.length_append, List.length_reverse,
      List.length_map, List.length_nil]
    omega
  flow := by simp [conclude, Inventory.discardAll, h.flow]
  fits := by
    refine ⟨rfl, ?_⟩
    have hfits := h.fits
    cases hstage : l.stage <;> simp_all [Fits, conclude, Inventory.discardAll]
  one_target := h.one_target

theorem sound_shutdown (h : l.Sound target) : l.shutdown.Sound target := by
  unfold shutdown
  split
  · exact h
  · exact sound_conclude (sound_windDown h)

end Soundness

/-! ## What work leaves alone -/

section Frames

/-- The second ledger differs from the first in what workers do only. -/
structure AfterWork (l m : Ledger α δ) : Prop where
  config : m.config = l.config
  capacity : m.capacity = l.capacity
  accepting : m.accepting = l.accepting
  accepted : m.accepted = l.accepted
  refused : m.refused = l.refused
  discarded : m.discarded = l.discarded
  unreturned : m.unreturned = l.unreturned
  returned : m.returned = l.returned

theorem AfterWork.refl (l : Ledger α δ) : l.AfterWork l :=
  ⟨rfl, rfl, rfl, rfl, rfl, rfl, rfl, rfl⟩

theorem AfterWork.trans {l m n : Ledger α δ} (h : l.AfterWork m) (k : m.AfterWork n) :
    l.AfterWork n where
  config := k.config.trans h.config
  capacity := k.capacity.trans h.capacity
  accepting := k.accepting.trans h.accepting
  accepted := k.accepted.trans h.accepted
  refused := k.refused.trans h.refused
  discarded := k.discarded.trans h.discarded
  unreturned := k.unreturned.trans h.unreturned
  returned := k.returned.trans h.returned

variable [Payload α]

theorem afterWork_take (l : Ledger α δ) : l.AfterWork l.take := by
  unfold take
  split
  · split
    · exact ⟨rfl, rfl, rfl, rfl, rfl, rfl, rfl, rfl⟩
    · exact ⟨rfl, rfl, rfl, rfl, rfl, rfl, rfl, rfl⟩
  · exact .refl l

variable [Target α δ]

theorem afterWork_deliver (l : Ledger α δ) : l.AfterWork l.deliver := by
  unfold deliver
  split
  · split
    · exact ⟨rfl, rfl, rfl, rfl, rfl, rfl, rfl, rfl⟩
    · exact ⟨rfl, rfl, rfl, rfl, rfl, rfl, rfl, rfl⟩
  · exact .refl l

theorem afterWork_drain (fuel : Nat) (l : Ledger α δ) : l.AfterWork (l.drain fuel) := by
  induction fuel generalizing l with
  | zero => exact .refl l
  | succ fuel ih => exact ((afterWork_take l).trans (afterWork_deliver _)).trans (ih _)

/-- The last work comes after the closing. -/
theorem afterWork_windDown (l : Ledger α δ) : l.close.AfterWork l.windDown := by
  unfold windDown
  split
  · exact (afterWork_deliver _).trans (afterWork_drain _ _)
  · exact afterWork_deliver _

/-- Only an offer accepts or refuses an event. -/
theorem offers_step (l : Ledger α δ) (action : Engine.Action α)
    (hother : ∀ fault a, action ≠ .enqueue fault a) :
    (l.step action).accepted = l.accepted ∧ (l.step action).refused = l.refused := by
  cases action with
  | start fault =>
      have hstart := toInventory_start l fault
      exact ⟨by rw [step, hstart], by rw [step, hstart]⟩
  | enqueue fault a => exact absurd rfl (hother fault a)
  | take => exact ⟨(afterWork_take l).accepted, (afterWork_take l).refused⟩
  | deliver => exact ⟨(afterWork_deliver l).accepted, (afterWork_deliver l).refused⟩
  | shutdown =>
      simp only [step, shutdown]
      split
      · exact ⟨rfl, rfl⟩
      · exact ⟨(afterWork_windDown l).accepted, (afterWork_windDown l).refused⟩
  | takeTarget =>
      simp only [step, takeTarget]
      split <;> exact ⟨rfl, rfl⟩

/-- Only taking the target back adds to the returned targets. -/
theorem returned_step (l : Ledger α δ) (action : Engine.Action α)
    (hother : action ≠ .takeTarget) : (l.step action).returned = l.returned := by
  cases action with
  | start fault => exact (frame_start l fault).2
  | enqueue fault a =>
      simp only [step, enqueue]
      split <;> exact (frame_start l fault).2
  | take => exact (afterWork_take l).returned
  | deliver => exact (afterWork_deliver l).returned
  | shutdown =>
      simp only [step, shutdown]
      split
      · rfl
      · exact (afterWork_windDown l).returned
  | takeTarget => exact absurd rfl hother

/-- Only an offer leaves an event with a call that does not return. -/
theorem unreturned_step (l : Ledger α δ) (action : Engine.Action α)
    (hother : ∀ fault a, action ≠ .enqueue fault a) :
    (l.step action).unreturned = l.unreturned := by
  cases action with
  | start fault => rw [step, toInventory_start]
  | enqueue fault a => exact absurd rfl (hother fault a)
  | take => exact (afterWork_take l).unreturned
  | deliver => exact (afterWork_deliver l).unreturned
  | shutdown =>
      simp only [step, shutdown]
      split
      · rfl
      · exact (afterWork_windDown l).unreturned
  | takeTarget =>
      simp only [step, takeTarget]
      split <;> rfl

/-- A step keeps the settings and the number of records. -/
theorem settings_step (l : Ledger α δ) (action : Engine.Action α) :
    (l.step action).config = l.config ∧ (l.step action).capacity = l.capacity := by
  have hconfig : ∀ fault, (l.start fault).config = l.config := by
    intro fault
    exact (frame_start l fault).1
  have hcapacity : ∀ fault, (l.start fault).capacity = l.capacity := by
    intro fault
    rw [toInventory_start]
  cases action with
  | start fault => exact ⟨hconfig fault, hcapacity fault⟩
  | enqueue fault a =>
      simp only [step, enqueue]
      split
      · exact ⟨hconfig fault, hcapacity fault⟩
      · exact ⟨hconfig fault, (Inventory.capacity_offer _ a).trans (hcapacity fault)⟩
  | take => exact ⟨(afterWork_take l).config, (afterWork_take l).capacity⟩
  | deliver => exact ⟨(afterWork_deliver l).config, (afterWork_deliver l).capacity⟩
  | shutdown =>
      simp only [step, shutdown]
      split
      · exact ⟨rfl, rfl⟩
      · exact ⟨(afterWork_windDown l).config, (afterWork_windDown l).capacity⟩
  | takeTarget =>
      simp only [step, takeTarget]
      split <;> exact ⟨rfl, rfl⟩

/-- A step keeps the gate at the stage. -/
theorem isGated_step {l : Ledger α δ} (h : l.IsGated) (action : Engine.Action α) :
    (l.step action).IsGated := by
  cases action with
  | start fault => exact isGated_start h fault
  | enqueue fault a =>
      simp only [step, enqueue]
      split
      · exact isGated_start h fault
      · exact (Inventory.accepting_offer _ a).trans (isGated_start h fault)
  | take =>
      simp only [step, take]
      split
      next hstage _ =>
        have haccepting : l.accepting = true := by rw [h, hstage]; rfl
        split <;> simp [IsGated, Stage.isOpen, haccepting]
      next => exact h
  | deliver =>
      simp only [step, deliver]
      split
      next hstage _ =>
        have haccepting : l.accepting = true := by rw [h, hstage]; rfl
        split <;> simp [IsGated, Stage.isOpen, haccepting]
      next => exact h
  | shutdown =>
      simp only [step, shutdown]
      split
      · exact h
      · exact (afterWork_windDown l).accepting
  | takeTarget =>
      simp only [step, takeTarget]
      split
      next hstage =>
        have haccepting : l.accepting = false := by rw [h, hstage]; rfl
        simp [IsGated, Stage.isOpen, haccepting]
      next => exact h

/-! ## Closed ledgers -/

/-- Only a shutdown closes an engine, and nothing opens it again. -/
theorem closed_step (l : Ledger α δ) (action : Engine.Action α) :
    (∃ t, (l.step action).stage = .closed t) ↔ (∃ t, l.stage = .closed t) ∨ action = .shutdown := by
  have hstart : ∀ fault, (∃ t, (l.start fault).stage = .closed t) ↔ ∃ t, l.stage = .closed t := by
    intro fault
    unfold start
    split
    next hstage =>
      split
      · simp [hstage]
      · cases fault <;> simp [hstage]
    next => rfl
  cases action with
  | start fault => simpa [step] using hstart fault
  | enqueue fault a =>
      simp only [step, enqueue]
      split <;> simpa using hstart fault
  | take =>
      simp only [step, take]
      split
      next hstage _ => split <;> simp [hstage]
      next => simp
  | deliver =>
      simp only [step, deliver]
      split
      next hstage _ => split <;> simp [hstage]
      next => simp
  | shutdown =>
      simp only [step, shutdown]
      split
      next t hstage => simp [hstage]
      next => simp [conclude]
  | takeTarget =>
      simp only [step, takeTarget]
      split
      next hstage => simp [hstage]
      next => simp

/-- An engine is closed once a shutdown was among its actions. -/
theorem closed_run (l : Ledger α δ) (actions : List (Engine.Action α)) :
    (∃ t, (l.run actions).stage = .closed t) ↔
      (∃ t, l.stage = .closed t) ∨ .shutdown ∈ actions := by
  induction actions generalizing l with
  | nil => simp [run]
  | cons action actions ih =>
      have hrest := ih (l.step action)
      rw [closed_step] at hrest
      rw [List.mem_cons, eq_comm, ← or_assoc]
      exact hrest

end Frames

/-! ## Sound runs -/

section Runs

variable [Payload α] [Target α δ] {l : Ledger α δ} {target : δ}

/-- Offering an event to an engine keeps a ledger sound. -/
theorem sound_enqueue (h : l.Sound target) (hgated : l.IsGated) (fault : Option IoFault)
    (a : α) : (l.enqueue fault a).Sound target := by
  have hstart := sound_start h fault
  unfold enqueue
  split
  · exact ⟨hstart.places, hstart.flow, hstart.fits, hstart.one_target⟩
  next hnamable =>
    refine sound_offer hstart (stage_start_ne_idle (by simpa using hnamable) fault) ?_ a
    intro haccepting t hstage
    have hgate := isGated_start hgated fault
    rw [IsGated, haccepting, hstage] at hgate
    cases hgate

theorem sound_step (h : l.Sound target) (hgated : l.IsGated) (action : Engine.Action α) :
    (l.step action).Sound target := by
  cases action with
  | start fault => exact sound_start h fault
  | enqueue fault a => exact sound_enqueue h hgated fault a
  | take => exact sound_take h
  | deliver => exact sound_deliver h
  | shutdown => exact sound_shutdown h
  | takeTarget => exact sound_takeTarget h

/-- A run from a sound and gated ledger keeps it sound, gated and with its settings. -/
theorem run_of_sound (h : l.Sound target) (hgated : l.IsGated)
    (actions : List (Engine.Action α)) :
    (l.run actions).Sound target ∧ (l.run actions).IsGated ∧
      (l.run actions).config = l.config ∧ (l.run actions).capacity = l.capacity := by
  induction actions generalizing l with
  | nil => exact ⟨h, hgated, rfl, rfl⟩
  | cons action actions ih =>
      rcases settings_step l action with ⟨hconfig, hcapacity⟩
      obtain ⟨hsound, hgate, hconfigs, hcapacities⟩ :=
        ih (sound_step h hgated action) (isGated_step hgated action)
      exact ⟨hsound, hgate, hconfigs.trans hconfig, hcapacities.trans hcapacity⟩

/-- Every ledger of a run is sound. -/
theorem sound_run (config : Config) (target : δ) (actions : List (Engine.Action α)) :
    ((Ledger.new config target).run actions).Sound target :=
  (run_of_sound (sound_new config target) rfl actions).1

/-- Events are accepted in the stages that say so, and in no others. -/
theorem isGated_run (config : Config) (target : δ) (actions : List (Engine.Action α)) :
    ((Ledger.new config target).run actions).IsGated :=
  (run_of_sound (sound_new config target) rfl actions).2.1

/-- The settings are those of the beginning. -/
theorem settings_run (config : Config) (target : δ) (actions : List (Engine.Action α)) :
    ((Ledger.new config target).run actions).config = config ∧
      ((Ledger.new config target).run actions).capacity = config.poolCapacity :=
  (run_of_sound (sound_new config target) rfl actions).2.2

end Runs

/-! ## Draining -/

section Draining

variable [Payload α] [Target α δ]

/-- Without a worker at work nothing is drained. -/
theorem drain_of_ne_looking {l : Ledger α δ} (hlooking : ∀ t, l.stage ≠ .looking t)
    (hholding : ∀ t, l.stage ≠ .holding t) (fuel : Nat) : l.drain fuel = l := by
  induction fuel with
  | zero => rfl
  | succ fuel ih =>
      rw [drain, take_of_ne_looking hlooking, deliver_of_ne_holding hholding, ih]

theorem drain_of_dead {l : Ledger α δ} (h : l.stage = .dead) (fuel : Nat) : l.drain fuel = l :=
  drain_of_ne_looking (by simp [h]) (by simp [h]) fuel

/-- Without a worker at work there is no last work. -/
theorem windDown_of_ne_working {l : Ledger α δ} (hlooking : ∀ t, l.close.stage ≠ .looking t)
    (hholding : ∀ t, l.close.stage ≠ .holding t) : l.windDown = l.close := by
  rw [windDown, deliver_of_ne_holding hholding, drain_of_ne_looking hlooking hholding, ite_self]

theorem windDown_of_failed {l : Ledger α δ} (h : l.stage = .failed) : l.windDown = l.close :=
  windDown_of_ne_working (by simp [close, h]) (by simp [close, h])

theorem windDown_of_dead {l : Ledger α δ} (h : l.stage = .dead) : l.windDown = l.close :=
  windDown_of_ne_working (by simp [close, h]) (by simp [close, h])

/-- A worker with an empty queue drains nothing. -/
theorem drain_of_queued_nil {l : Ledger α δ} {t : δ} (hstage : l.stage = .looking t)
    (hqueued : l.queued = []) (fuel : Nat) : l.drain fuel = l := by
  induction fuel with
  | zero => rfl
  | succ fuel ih =>
      rw [drain, take_of_queued_nil hqueued, deliver_of_ne_holding (by simp [hstage]), ih]

/-- With an empty queue there is no last work for an engine that was not started. -/
theorem windDown_of_idle {l : Ledger α δ} {t : δ} (hstage : l.stage = .idle t)
    (hqueued : l.queued = []) : l.windDown = l.close := by
  have hclose : l.close.stage = .looking t := by
    rw [close, hstage]
  rw [windDown, deliver_of_ne_holding (by simp [hclose]), drain_of_queued_nil hclose hqueued,
    ite_self]

/-- A worker that drains leaves nothing in the queue, unless it dies. -/
theorem stage_drain {l : Ledger α δ} {t : δ} {fuel : Nat} (hstage : l.stage = .looking t)
    (hfuel : l.queued.length ≤ fuel) :
    (l.drain fuel).stage = .dead ∨
      (∃ u, (l.drain fuel).stage = .looking u) ∧ (l.drain fuel).queued = [] := by
  induction fuel generalizing l t with
  | zero => exact Or.inr ⟨⟨t, hstage⟩, List.length_eq_zero_iff.1 (Nat.le_zero.1 hfuel)⟩
  | succ fuel ih =>
      cases hqueued : l.queued with
      | nil =>
          rw [drain_of_queued_nil hstage hqueued]
          exact Or.inr ⟨⟨t, hstage⟩, hqueued⟩
      | cons p queued =>
          rcases p with ⟨i, a⟩
          have hlength : queued.length ≤ fuel := by
            rw [hqueued, List.length_cons] at hfuel
            omega
          rw [drain]
          cases hrender : Payload.render a with
          | none =>
              rw [take_of_render_none hstage hqueued hrender, deliver_of_ne_holding (by simp),
                drain_of_dead rfl]
              exact Or.inl rfl
          | some line =>
              rw [take_of_render_some hstage hqueued hrender]
              cases hhanded : handOver a t with
              | none =>
                  rw [deliver_of_handOver_none rfl rfl hhanded, drain_of_dead rfl]
                  exact Or.inl rfl
              | some u =>
                  rw [deliver_of_handOver_some rfl rfl hhanded]
                  exact ih rfl hlength

end Draining

end Ledger

end EventLog
