import EventLog.Proofs.Engine.Simulation

/-!
# Histories of runs

What a run of an engine did is read off the calls that it is made of: the events whose
offer raised the number of accepted events, the events whose offer returned, and the
targets that were handed back.  The ledger of the run keeps the same lists.

Main results:

- `Engine.accepted_run`, `Engine.offered_run`, `Engine.taken_run`: the lists of a run are
  the ones of its ledger.
-/

namespace EventLog

variable {α δ β : Type}

namespace Engine

/-! ## Reading a run -/

/-- The events that an action gets accepted. -/
def acceptedAt [Payload α] [Target α δ] (e : Engine α δ) : Action α → List α
  | .enqueue fault a =>
    if (e.enqueue fault a).2.stats.enqueued = e.stats.enqueued + 1 then [a] else []
  | _ => []

/-- The events that an action offers in a call that returns. -/
def offeredAt (e : Engine α δ) : Action α → List α
  | .enqueue fault a =>
    match (e.enqueue fault a).1 with
    | .panicked _ => []
    | _ => [a]
  | _ => []

/-- The targets that an action hands back. -/
def takenAt (e : Engine α δ) : Action α → List δ
  | .takeTarget => e.takeTarget.1.toList
  | _ => []

section Collecting

variable [Payload α] [Target α δ]

/-- What is read off the actions of a run, in order. -/
def collect (read : Engine α δ → Action α → List β) : Engine α δ → List (Action α) → List β
  | _, [] => []
  | e, action :: rest => read e action ++ collect read (e.step action) rest

/-- The events that were accepted in a run. -/
def acceptedIn (e : Engine α δ) (actions : List (Action α)) : List α :=
  collect acceptedAt e actions

/-- The events that were offered in a run in calls that returned. -/
def offeredIn (e : Engine α δ) (actions : List (Action α)) : List α :=
  collect offeredAt e actions

/-- The targets that were handed back in a run. -/
def takenIn (e : Engine α δ) (actions : List (Action α)) : List δ :=
  collect takenAt e actions

/-- What a step adds to a number that is read off the ledger, a run adds in sum. -/
theorem collect_eq (read : Engine α δ → Action α → List β) (kept : Ledger α δ → List β → Prop)
    (hstep : ∀ e l action bs, Engine.Matches e l → kept l bs →
      kept (l.step action) (bs ++ read e action))
    {e : Engine α δ} {l : Ledger α δ} (h : e.Matches l) (bs : List β) (hkept : kept l bs)
    (actions : List (Action α)) : kept (l.run actions) (bs ++ collect read e actions) := by
  induction actions generalizing e l bs with
  | nil => simpa [collect, Ledger.run] using hkept
  | cons action actions ih =>
      have hrest := ih (matches_step h action) _ (hstep e l action bs h hkept)
      simpa [collect, Ledger.run, List.append_assoc] using hrest

end Collecting

/-! ## Single steps -/

variable [Payload α] {e : Engine α δ} {l : Ledger α δ}

theorem Matches.stats_eq (h : e.Matches l) : e.stats = l.stats :=
  h.shared.stats

theorem Matches.availableSlots_eq (h : e.Matches l) : e.availableSlots = l.free.length :=
  Shared.available_of_holds h.shared

theorem Matches.target?_eq (h : e.Matches l) : e.target? = l.stage.target? := by
  have hstage := h.stage
  rw [hstage.stage_eq, Engine.target?]
  cases hlifecycle : e.lifecycle with
  | running worker =>
      rw [hlifecycle] at hstage
      cases worker with
      | finished target => exact hstage.elim
      | polling line target | holding index line target | died index => rfl
  | idle target | failed | stopped target => rfl

/-! ## Histories of runs -/

section Histories

variable [Target α δ]

/-- The ledger lists the accepted events of a step. -/
theorem accepted_step (h : e.Matches l) (action : Action α) :
    (l.step action).accepted = l.accepted ++ e.acceptedAt action := by
  cases action with
  | enqueue fault a =>
      have hbefore : e.stats.enqueued = l.accepted.length := by
        rw [h.stats_eq]
        rfl
      have hafter : (e.enqueue fault a).2.stats.enqueued = (l.enqueue fault a).accepted.length := by
        rw [(matches_enqueue h fault a).stats_eq]
        rfl
      rw [acceptedAt, hbefore, hafter, Ledger.step]
      rcases Ledger.enqueue_cases l fault a with ⟨-, hsame, -⟩ | ⟨-, hadded, -⟩ | ⟨-, hsame, -⟩
      · simp [hsame]
      · simp [hadded]
      · simp [hsame]
  | start fault | take | deliver | shutdown | takeTarget =>
      refine (Ledger.offers_step l _ ?_).1.trans (List.append_nil _).symm
      simp

/-- The ledger lists the offered events of a step. -/
theorem offered_step (h : e.Matches l) (action : Action α) :
    (l.step action).accepted.length + (l.step action).refused.length =
      l.accepted.length + l.refused.length + (e.offeredAt action).length := by
  cases action with
  | enqueue fault a =>
      have hpanics := enqueue_panics_iff h fault a
      rw [Ledger.step, offeredAt]
      rcases Ledger.enqueue_cases l fault a with ⟨hname, haccepted, hrefused, -⟩ |
          ⟨hname, haccepted, hrefused, -⟩ | ⟨hname, haccepted, hrefused, -⟩
      · rcases hpanics.2 hname with ⟨p, hp⟩
        simp [hp, haccepted, hrefused]
      · cases hreply : (e.enqueue fault a).1 with
        | panicked p => simp [hname, hreply] at hpanics
        | done | refused fault =>
            simp only [haccepted, hrefused, List.length_append, List.length_singleton]
            omega
      · cases hreply : (e.enqueue fault a).1 with
        | panicked p => simp [hname, hreply] at hpanics
        | done | refused fault =>
            simp only [haccepted, hrefused, List.length_append, List.length_singleton]
            omega
  | start fault | take | deliver | shutdown | takeTarget =>
      rw [(Ledger.offers_step l _ ?_).1, (Ledger.offers_step l _ ?_).2]
      · rfl
      all_goals simp

/-- The ledger lists the targets that a step hands back. -/
theorem taken_step (h : e.Matches l) (action : Action α) :
    (l.step action).returned = l.returned ++ e.takenAt action := by
  cases action with
  | takeTarget =>
      have hstage := h.stage.stage_eq
      rw [Ledger.step, takenAt, takeTarget, Ledger.takeTarget, hstage]
      cases e.lifecycle with
      | stopped target => cases target <;> simp [Lifecycle.stage]
      | running worker => cases worker <;> simp [Lifecycle.stage, Worker.stage]
      | idle target | failed => simp [Lifecycle.stage]
  | start fault | enqueue fault a | take | deliver | shutdown =>
      refine (Ledger.returned_step l _ ?_).trans (List.append_nil _).symm
      simp

variable {config : Config} {target : δ} (hnew : Engine.new config target = .ok e)
include hnew

theorem accepted_run (actions : List (Action α)) :
    ((Ledger.new config target).run actions).accepted = e.acceptedIn actions := by
  have hrun := collect_eq acceptedAt (fun l as => l.accepted = as)
    (fun e l action as h hkept => by rw [accepted_step h action, hkept])
    (matches_new hnew) [] rfl actions
  simpa [acceptedIn] using hrun

theorem offered_run (actions : List (Action α)) :
    ((Ledger.new config target).run actions).accepted.length +
      ((Ledger.new config target).run actions).refused.length =
        (e.offeredIn actions).length := by
  have hrun := collect_eq offeredAt
    (fun l as => l.accepted.length + l.refused.length = as.length)
    (fun e l action as h hkept => by rw [offered_step h action, hkept, List.length_append])
    (matches_new hnew) [] rfl actions
  simpa [offeredIn] using hrun

theorem taken_run (actions : List (Action α)) :
    ((Ledger.new config target).run actions).returned = e.takenIn actions := by
  have hrun := collect_eq takenAt (fun l ts => l.returned = ts)
    (fun e l action ts h hkept => by rw [taken_step h action, hkept])
    (matches_new hnew) [] rfl actions
  simpa [takenIn] using hrun

end Histories

end Engine

end EventLog
