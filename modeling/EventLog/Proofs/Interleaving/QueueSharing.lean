import EventLog.Proofs.Interleaving.QueuePath

/-!
# Queues between producers and a consumer

The consumer hands out the nodes of a path from its head, except for the stub.  It appends too,
when it puts the stub behind the last node, and is then one more thread that pushes.

Main results:

- `Queue.Carries.produce`: a step of a producer.
- `Queue.Carries.consume`: a step of the consumer hands out the first node or none, and finds the
  queue empty only if it is.
- `Queue.rank_step_lt`: a pop ends if no producer holds it up.
-/

namespace EventLog

namespace Queue

variable {chain : List Address}

/-! ## Producers and the consumer -/

/-- The push of the stub that a pop is in. -/
def PopPhase.ownPush (stub : Address) : PopPhase → Option PushPhase
  | clearStub => some (.clear stub)
  | exchangeStub => some (.exchange stub)
  | publishStub former => some (.publish stub former)
  | _ => none

/-- The pushes of all threads; the consumer is the one without a number. -/
def allPushes (stub : Address) (pushes : Nat → Option PushPhase) (pop : Option PopPhase) :
    Option Nat → Option PushPhase
  | none => pop.bind (PopPhase.ownPush stub)
  | some i => pushes i

/-- What the consumer knows about the head. -/
def PopPhase.Fits (q : Queue) : PopPhase → Prop
  | start => True
  | readTailAtStub => q.head = q.stub
  | awaitStub => q.head = q.stub ∧ q.tail ≠ q.stub
  | awaitHead => q.head ≠ q.stub ∧ q.tail ≠ q.head
  | done _ => False
  | _ => q.head ≠ q.stub

@[simp] theorem PushPhase.stub_step (q : Queue) (l : Links) (phase : PushPhase) :
    (phase.step q l).2.1.stub = q.stub := by
  cases phase <;> rfl

@[simp] theorem PushPhase.size_step (q : Queue) (l : Links) (phase : PushPhase) :
    (phase.step q l).2.2.size = l.size := by
  cases phase <;> simp [PushPhase.step]

/-- The consumer never puts another node in the place of the stub. -/
@[simp] theorem PopPhase.stub_step (q : Queue) (l : Links) (phase : PopPhase) :
    (phase.step q l).2.1.stub = q.stub := by
  cases phase <;> simp only [PopPhase.step] <;> repeat' split
  all_goals rfl

/-- The pop that the consumer is in after a step. -/
def PopPhase.open? : PopPhase → Option PopPhase
  | done _ => none
  | phase => some phase

/-- The node that a step hands out. -/
def PopPhase.popped? : PopPhase → Option Address
  | done node => node
  | _ => none

/-- A queue, the pushes of its producers, the pop of its consumer and the path between head and
tail. -/
structure Carries (q : Queue) (l : Links) (pushes : Nat → Option PushPhase)
    (pop : Option PopPhase) (chain : List Address) : Prop where
  path : Path q l (allPushes q.stub pushes pop) chain
  stub_lt : q.stub < l.size
  node?_ne_stub : ∀ i phase, pushes i = some phase → phase.node? ≠ some q.stub
  pop_fits : ∀ phase, pop = some phase → phase.Fits q

/-- The nodes of a path that are handed out. -/
def content (stub : Address) (chain : List Address) : List Address :=
  chain.filter (· ≠ stub)

/-- An empty queue. -/
theorem carries_new {stub : Address} {l : Links} (hsize : stub < l.size)
    (hl : l.get stub = none) : Carries (new stub) l (fun _ => none) none [stub] where
  path := {
    head_eq := rfl
    tail_eq := rfl
    nodup := by simp
    bounded := by simpa using hsize
    links := by
      intro a ha
      rw [List.mem_singleton.1 ha]
      exact Or.inl hl
    fits := by
      rintro (_ | i) phase hi <;> cases hi
    apart := by
      rintro (_ | i) j v w node hi <;> cases hi }
  stub_lt := hsize
  node?_ne_stub := by
    rintro i phase ⟨⟩
  pop_fits := by
    rintro phase ⟨⟩

theorem update_allPushes_some {stub : Address} {pushes : Nat → Option PushPhase}
    {pop : Option PopPhase} (i : Nat) (next : Option PushPhase) :
    Function.update (allPushes stub pushes pop) (some i) next =
      allPushes stub (Function.update pushes i next) pop := by
  funext j
  cases j with
  | none => rfl
  | some j =>
      by_cases hji : j = i
      · subst hji
        simp [allPushes]
      · simp [allPushes, hji]

theorem update_allPushes_none {stub : Address} {pushes : Nat → Option PushPhase}
    {pop pop' : Option PopPhase} :
    Function.update (allPushes stub pushes pop) none (pop'.bind (PopPhase.ownPush stub)) =
      allPushes stub pushes pop' := by
  funext j
  cases j with
  | none => rfl
  | some j => rfl

namespace Carries

variable {q : Queue} {l : Links} {pushes : Nat → Option PushPhase} {pop pop' : Option PopPhase}
  {i : Nat} {node next : Address}

/-- A producer begins to push a node that is in no queue. -/
theorem begin (h : Carries q l pushes pop chain) (hi : pushes i = none) (hstub : node ≠ q.stub)
    (hnode : node ∉ chain) (hsize : node < l.size)
    (hother : ∀ j phase, pushes j = some phase → phase.node? ≠ some node) :
    Carries q l (Function.update pushes i (some (.clear node))) pop chain where
  path := by
    rw [← update_allPushes_some]
    refine h.path.setPush (by simp [allPushes, hi]) ?_ ?_
    · rintro phase ⟨⟩
      exact ⟨hnode, hsize⟩
    · rintro v m ⟨⟩ hm j w - hj hw
      obtain rfl : node = m := Option.some.inj hm
      cases j with
      | some j => exact hother j w hj hw
      | none =>
          cases pop with
          | none => cases hj
          | some phase =>
              cases phase <;> cases hj <;> exact hstub (Option.some.inj hw).symm
  stub_lt := h.stub_lt
  node?_ne_stub := by
    intro j phase hj
    by_cases hji : j = i
    · subst hji
      rw [Function.update_self] at hj
      cases hj
      exact fun heq => hstub (Option.some.inj heq)
    · rw [Function.update_of_ne hji] at hj
      exact h.node?_ne_stub j phase hj
  pop_fits := h.pop_fits

/-- A step of a producer. -/
theorem produce {phase : PushPhase} (h : Carries q l pushes pop chain)
    (hi : pushes i = some phase) :
    let next := phase.step q l
    Carries next.2.1 next.2.2 (Function.update pushes i (QueueThreads.openPush next.1)) pop
      (phase.extend chain) := by
  have hstub := PushPhase.stub_step q l phase
  have hhead : (phase.step q l).2.1.head = q.head := by cases phase <;> rfl
  refine {
    path := ?_
    stub_lt := by simpa using h.stub_lt
    node?_ne_stub := ?_
    pop_fits := ?_ }
  · rw [hstub, ← update_allPushes_some]
    exact h.path.push hi
  · intro j w hj
    rw [hstub]
    by_cases hji : j = i
    · subst hji
      rw [Function.update_self] at hj
      have hne := h.node?_ne_stub j phase hi
      cases phase <;> cases hj <;> exact hne
    · rw [Function.update_of_ne hji] at hj
      exact h.node?_ne_stub j w hj
  · intro w hw
    have hfits := h.pop_fits w hw
    have htail : (phase.step q l).2.1.tail = q.tail ∨
        (phase.step q l).2.1.tail ≠ q.stub ∧ (phase.step q l).2.1.tail ≠ q.head := by
      cases phase with
      | exchange m =>
          refine Or.inr ⟨fun heq => h.node?_ne_stub i _ hi (congrArg some heq), ?_⟩
          rintro rfl
          exact (h.path.fits (some i) _ hi).1 h.path.head_mem
      | _ => exact Or.inl rfl
    cases w with
    | start => trivial
    | awaitStub =>
        refine ⟨by rw [hhead, hstub]; exact hfits.1, ?_⟩
        rw [hstub]
        rcases htail with heq | hne
        · rw [heq]
          exact hfits.2
        · exact hne.1
    | awaitHead =>
        refine ⟨by rw [hhead, hstub]; exact hfits.1, ?_⟩
        rw [hhead]
        rcases htail with heq | hne
        · rw [heq]
          exact hfits.2
        · exact hne.2
    | done m => exact hfits
    | _ =>
        simp only [PopPhase.Fits] at hfits ⊢
        rw [hhead, hstub]
        exact hfits

/-- The consumer goes on without a push of its own. -/
theorem setPop (h : Carries q l pushes pop chain) (hpop : pop.bind (PopPhase.ownPush q.stub) = none)
    (hpop' : pop'.bind (PopPhase.ownPush q.stub) = none)
    (hfits : ∀ phase, pop' = some phase → phase.Fits q) : Carries q l pushes pop' chain where
  path := by
    have heq : allPushes q.stub pushes pop' = allPushes q.stub pushes pop := by
      funext j
      cases j with
      | none => exact hpop'.trans hpop.symm
      | some j => rfl
    rw [heq]
    exact h.path
  stub_lt := h.stub_lt
  node?_ne_stub := h.node?_ne_stub
  pop_fits := hfits

/-- The consumer hands out the head. -/
theorem handOut (h : Carries q l pushes pop chain)
    (hpop : pop.bind (PopPhase.ownPush q.stub) = none) (hhead : q.head ≠ q.stub)
    (hnext : l.get q.head = some next) :
    ∃ chain', Carries { q with head := next } l pushes none chain' ∧
      content q.stub chain = q.head :: content q.stub chain' := by
  have hnone : Carries q l pushes none chain := h.setPop hpop rfl (by rintro phase ⟨⟩)
  rcases hnone.path.advance hnext with ⟨rest, hchain, -, hrest⟩
  refine ⟨rest, ⟨hrest, h.stub_lt, h.node?_ne_stub, by rintro phase ⟨⟩⟩, ?_⟩
  rw [hchain, content, List.filter_cons_of_pos (by simpa using hhead)]
  rfl

/-- The consumer passes the stub. -/
theorem passStub (h : Carries q l pushes pop chain)
    (hpop : pop.bind (PopPhase.ownPush q.stub) = none) (hhead : q.head = q.stub)
    (hnext : l.get q.head = some next) :
    ∃ chain', Carries { q with head := next } l pushes (some .readHead) chain' ∧
      content q.stub chain = content q.stub chain' := by
  have hnone : Carries q l pushes none chain := h.setPop hpop rfl (by rintro phase ⟨⟩)
  rcases hnone.path.advance hnext with ⟨rest, hchain, hmem, hrest⟩
  have hne : next ≠ q.stub := by
    rintro rfl
    have hnodup := h.path.nodup
    rw [hchain, hhead] at hnodup
    exact (List.nodup_cons.1 hnodup).1 hmem
  refine ⟨rest, ⟨hrest, h.stub_lt, h.node?_ne_stub, ?_⟩, ?_⟩
  · rintro phase ⟨⟩
    exact hne
  · rw [hchain, content, List.filter_cons_of_neg (by simp [hhead])]
    rfl

/-- The consumer takes a step of its push of the stub. -/
theorem pushStub {phase : PopPhase} (push : PushPhase) (h : Carries q l pushes (some phase) chain)
    (hown : phase.ownPush q.stub = some push)
    (hpop' : pop'.bind (PopPhase.ownPush q.stub) = QueueThreads.openPush (push.step q l).1)
    (hfits : ∀ phase, pop' = some phase → phase.Fits (push.step q l).2.1) :
    Carries (push.step q l).2.1 (push.step q l).2.2 pushes pop' (push.extend chain) := by
  refine {
    path := ?_
    stub_lt := by simpa using h.stub_lt
    node?_ne_stub := by simpa using h.node?_ne_stub
    pop_fits := hfits }
  have hpath := h.path.push (i := none) hown
  dsimp only at hpath
  rw [← hpop', update_allPushes_none] at hpath
  rw [PushPhase.stub_step]
  exact hpath

/-- A queue without content has nothing between head and tail. -/
theorem eq_stub_of_content (h : Carries q l pushes pop chain)
    (hcontent : content q.stub chain = []) : q.head = q.stub ∧ q.tail = q.stub := by
  have hall : ∀ a ∈ chain, a = q.stub := by
    intro a ha
    by_contra hne
    have hmem : a ∈ content q.stub chain := List.mem_filter.2 ⟨ha, by simpa using hne⟩
    rw [hcontent] at hmem
    cases hmem
  exact ⟨hall _ h.path.head_mem, hall _ h.path.tail_mem⟩

theorem isEmpty_of_content (h : Carries q l pushes pop chain)
    (hcontent : content q.stub chain = []) : q.isEmpty l = true := by
  rcases h.eq_stub_of_content hcontent with ⟨hhead, htail⟩
  have hget := h.path.get_tail
  rw [htail] at hget
  simp [isEmpty, hhead, htail, hget]

/-- A step of the consumer hands out the first node of the content or none, and finds the queue
empty only if there is no content. -/
theorem consume {phase : PopPhase} (h : Carries q l pushes (some phase) chain) :
    let next := phase.step q l
    (∃ chain', Carries next.2.1 next.2.2 pushes next.1.open? chain' ∧
      content q.stub chain = next.1.popped?.toList ++ content q.stub chain') ∧
      (next.1 = .done none → content q.stub chain = []) := by
  have hfits := h.pop_fits phase rfl
  cases phase with
  | start =>
      cases hnext : l.get q.head with
      | none =>
          simp only [PopPhase.step, hnext]
          by_cases hhead : q.head = q.stub
          · rw [if_pos hhead]
            refine ⟨⟨chain, h.setPop rfl rfl ?_, rfl⟩, by rintro ⟨⟩⟩
            rintro phase ⟨⟩
            exact hhead
          · rw [if_neg hhead]
            refine ⟨⟨chain, h.setPop rfl rfl ?_, rfl⟩, by rintro ⟨⟩⟩
            rintro phase ⟨⟩
            exact hhead
      | some next =>
          simp only [PopPhase.step, hnext]
          by_cases hhead : q.head = q.stub
          · rw [if_pos hhead]
            exact ⟨h.passStub rfl hhead hnext, by rintro ⟨⟩⟩
          · rw [if_neg hhead]
            exact ⟨h.handOut rfl hhead hnext, by rintro ⟨⟩⟩
  | readTailAtStub =>
      simp only [PopPhase.step]
      by_cases htail : q.tail = q.stub
      · rw [if_pos htail]
        have hchain := h.path.eq_singleton (htail.trans hfits.symm)
        refine ⟨⟨chain, h.setPop rfl rfl (by rintro phase ⟨⟩), rfl⟩, fun _ => ?_⟩
        rw [hchain, hfits]
        simp [content]
      · rw [if_neg htail]
        refine ⟨⟨chain, h.setPop rfl rfl ?_, rfl⟩, by rintro ⟨⟩⟩
        rintro phase ⟨⟩
        exact ⟨hfits, htail⟩
  | awaitStub =>
      cases hnext : l.get q.stub with
      | none =>
          simp only [PopPhase.step, hnext]
          exact ⟨⟨chain, h, rfl⟩, by rintro ⟨⟩⟩
      | some next =>
          simp only [PopPhase.step, hnext]
          rw [← hfits.1] at hnext
          exact ⟨h.passStub rfl hfits.1 hnext, by rintro ⟨⟩⟩
  | readHead =>
      cases hnext : l.get q.head with
      | none =>
          simp only [PopPhase.step, hnext]
          refine ⟨⟨chain, h.setPop rfl rfl ?_, rfl⟩, by rintro ⟨⟩⟩
          rintro phase ⟨⟩
          exact hfits
      | some next =>
          simp only [PopPhase.step, hnext]
          exact ⟨h.handOut rfl hfits hnext, by rintro ⟨⟩⟩
  | readTail =>
      simp only [PopPhase.step]
      by_cases htail : q.tail = q.head
      · rw [if_pos htail]
        have hchain := h.path.eq_singleton htail
        refine ⟨⟨chain, ⟨?_, h.stub_lt, h.node?_ne_stub, ?_⟩, rfl⟩, by rintro ⟨⟩⟩
        · rw [← update_allPushes_none]
          refine h.path.setPush (by rintro b a ⟨⟩) ?_ ?_
          · rintro phase ⟨⟩
            refine ⟨?_, h.stub_lt⟩
            rw [hchain]
            simpa using Ne.symm hfits
          · rintro v m ⟨⟩ hm j w hj hw
            obtain rfl : q.stub = m := Option.some.inj hm
            cases j with
            | none => exact absurd rfl hj
            | some j => exact h.node?_ne_stub j w hw
        · rintro phase ⟨⟩
          exact hfits
      · rw [if_neg htail]
        refine ⟨⟨chain, h.setPop rfl rfl ?_, rfl⟩, by rintro ⟨⟩⟩
        rintro phase ⟨⟩
        exact ⟨hfits, htail⟩
  | clearStub =>
      refine ⟨⟨chain, h.pushStub (.clear q.stub) rfl rfl ?_, rfl⟩, by rintro ⟨⟩⟩
      rintro phase ⟨⟩
      exact hfits
  | exchangeStub =>
      refine ⟨⟨_, h.pushStub (.exchange q.stub) rfl rfl ?_, ?_⟩, by rintro ⟨⟩⟩
      · rintro phase ⟨⟩
        exact hfits
      · simp [content, PushPhase.extend, PopPhase.step, PopPhase.popped?]
  | publishStub former =>
      refine ⟨⟨chain, h.pushStub (.publish q.stub former) rfl rfl ?_, rfl⟩,
        by rintro ⟨⟩⟩
      rintro phase ⟨⟩
      have hafter : after? chain former = some q.stub := (h.path.fits none _ rfl).1
      exact ⟨hfits, h.path.tail_ne_head (mem_of_after? hafter).2 (Ne.symm hfits)⟩
  | awaitHead =>
      cases hnext : l.get q.head with
      | none =>
          simp only [PopPhase.step, hnext]
          exact ⟨⟨chain, h, rfl⟩, by rintro ⟨⟩⟩
      | some next =>
          simp only [PopPhase.step, hnext]
          exact ⟨h.handOut rfl hfits.1 hnext, by rintro ⟨⟩⟩
  | done node => exact hfits.elim

/-! ## Pops that nobody holds up -/

/-- A node is linked once no producer is about to publish. -/
theorem exists_get_head (h : Carries q l (fun _ => none) pop chain)
    (hpop : pop.bind (PopPhase.ownPush q.stub) = none) (hne : q.tail ≠ q.head) :
    ∃ next, l.get q.head = some next := by
  rcases exists_after? h.path.tail_eq h.path.head_mem (Ne.symm hne) with ⟨next, hafter⟩
  rcases h.path.links q.head h.path.head_mem with hlink | ⟨-, i, b, hi⟩
  · exact ⟨next, hlink.trans hafter⟩
  · cases i with
    | none => cases hpop.symm.trans hi
    | some i => cases hi

end Carries

/-- A bound for the steps that a pop takes yet if no link is missing. -/
def PopPhase.rank : PopPhase → Nat
  | start => 10
  | readTailAtStub => 9
  | awaitStub => 8
  | readHead => 7
  | readTail => 6
  | clearStub => 5
  | exchangeStub => 4
  | publishStub _ => 3
  | awaitHead => 2
  | done _ => 0

/-- Without producers every step brings a pop closer to its end. -/
theorem rank_step_lt {q : Queue} {l : Links} {phase : PopPhase}
    (h : Carries q l (fun _ => none) (some phase) chain) :
    (phase.step q l).1.rank < phase.rank := by
  have hfits := h.pop_fits phase rfl
  cases phase with
  | start =>
      simp only [PopPhase.step]
      split
      · split <;> simp [PopPhase.rank]
      · split <;> simp [PopPhase.handOut, PopPhase.rank]
  | readTailAtStub =>
      simp only [PopPhase.step]
      split <;> simp [PopPhase.rank]
  | awaitStub =>
      have hne : q.tail ≠ q.head := by
        rw [hfits.1]
        exact hfits.2
      rcases h.exists_get_head rfl hne with ⟨next, hnext⟩
      rw [hfits.1] at hnext
      simp [PopPhase.step, hnext, PopPhase.rank]
  | readHead =>
      simp only [PopPhase.step]
      split <;> simp [PopPhase.handOut, PopPhase.rank]
  | readTail =>
      simp only [PopPhase.step]
      split <;> simp [PopPhase.rank]
  | clearStub => simp [PopPhase.step, PopPhase.rank]
  | exchangeStub => simp [PopPhase.step, PopPhase.rank]
  | publishStub former => simp [PopPhase.step, PopPhase.rank]
  | awaitHead =>
      rcases h.exists_get_head rfl hfits.2 with ⟨next, hnext⟩
      simp [PopPhase.step, hnext, PopPhase.handOut, PopPhase.rank]
  | done node => exact hfits.elim

end Queue

end EventLog
