import EventLog.Proofs.Interleaving.QueueSharing

/-!
# Runs of threads on a queue

However the steps of the producers and of the consumer interleave, the nodes come out of the
queue in the order in which the producers exchanged the tail for them.  Every exchange belongs to
one push, and a producer's exchanges follow its pushes.

Main results:

- `QueueThreads.sound_step`: a step leaves a path that holds what was exchanged and not popped.
- `QueueThreads.waiting_step`: a producer exchanges its nodes in the order of its pushes.
- `QueueThreads.popUntilNone_of_sound`: without producers popping comes to an end.
- `QueueThreads.isOrderly_run`: what every run leads to.
-/

namespace EventLog

namespace QueueThreads

open Queue

/-! ## Runs -/

/-- The state after some moves; `none` if one of them cannot be made. -/
def run? : State → List Move → Option State
  | s, [] => some s
  | s, m :: moves =>
    match step? s m with
    | none => none
    | some t => run? t moves

/-- The push that a producer is in. -/
def State.pushes (s : State) (i : Nat) : Option PushPhase := (s.producers[i]?).join

/-- The exchange that a move makes: its producer and its node. -/
def exchange? (s : State) : Move → Option (Nat × Address)
  | .produce i =>
    match s.pushes i with
    | some (.exchange node) => some (i, node)
    | _ => none
  | _ => none

/-- The exchanges that some moves make, in order. -/
def exchanges : State → List Move → List (Nat × Address)
  | _, [] => []
  | s, m :: moves =>
    (exchange? s m).toList ++
      match step? s m with
      | none => []
      | some t => exchanges t moves

/-- The push that a move begins: its producer and its node. -/
def Move.call? : Move → Option (Nat × Address)
  | .push i node => some (i, node)
  | _ => none

/-- The pushes that some moves begin, in order. -/
def calls (moves : List Move) : List (Nat × Address) := moves.filterMap Move.call?

/-- What one producer has in an order. -/
def entriesOf {β : Type} (i : Nat) (order : List (Nat × β)) : List β :=
  (order.filter fun entry => entry.1 = i).map Prod.snd

/-- The consumer pops until a pop comes back without a node; `none` if that takes more than a
number of steps. -/
def popUntilNone : Nat → State → Option State
  | 0, _ => none
  | steps + 1, s =>
    match s.consumer with
    | none => popUntilNone steps { s with consumer := some .start }
    | some phase =>
      if (phase.step s.queue s.links).1 = .done none then some (s.consume phase)
      else popUntilNone steps (s.consume phase)

variable {s t : State} {chain : List Address} {m : Move} {i : Nat}

/-! ## Moves -/

/-- What a move can do. -/
theorem step_cases (hstep : step? s m = some t) :
    (∃ i node, m = .push i node ∧ s.producers[i]? = some none ∧ node < s.queue.stub ∧
      node ∉ s.inside ∧ t = { s with
        producers := s.producers.setIfInBounds i (some (.clear node))
        inside := node :: s.inside }) ∨
    (∃ i phase, m = .produce i ∧ s.producers[i]? = some (some phase) ∧
      t = s.produce i phase) ∨
    (m = .pop ∧ s.consumer = none ∧ t = { s with consumer := some .start }) ∨
    (∃ phase, m = .consume ∧ s.consumer = some phase ∧ t = s.consume phase) := by
  cases m with
  | push i node =>
      simp only [step?] at hstep
      split at hstep
      · rename_i hfree
        exact Or.inl ⟨i, node, rfl, hfree.1, hfree.2.1, hfree.2.2, (Option.some.inj hstep).symm⟩
      · cases hstep
  | produce i =>
      simp only [step?] at hstep
      split at hstep
      · rename_i phase hphase
        exact Or.inr (Or.inl ⟨i, phase, rfl, hphase, (Option.some.inj hstep).symm⟩)
      · cases hstep
  | pop =>
      simp only [step?] at hstep
      split at hstep
      · rename_i hnone
        exact Or.inr (Or.inr (Or.inl ⟨rfl, hnone, (Option.some.inj hstep).symm⟩))
      · cases hstep
  | consume =>
      simp only [step?] at hstep
      split at hstep
      · cases hstep
      · rename_i phase hphase
        exact Or.inr (Or.inr (Or.inr ⟨phase, rfl, hphase, (Option.some.inj hstep).symm⟩))

/-- A step of the consumer, whether it hands out a node or not. -/
theorem consume_eq (s : State) (phase : PopPhase) :
    let next := phase.step s.queue s.links
    s.consume phase = { s with
      queue := next.2.1
      links := next.2.2
      consumer := next.1.open?
      inside := next.1.popped?.elim s.inside s.inside.erase
      popped := next.1.popped?.toList ++ s.popped
      answer := (s.consume phase).answer } := by
  unfold State.consume
  rcases phase.step s.queue s.links with ⟨next, queue, links⟩
  cases next with
  | done node => cases node <;> rfl
  | _ => rfl

/-- The node that a step of a push exchanges the tail for. -/
def exchanged? : PushPhase → Option Address
  | .exchange node => some node
  | _ => none

/-- The node of a push that is still to be exchanged. -/
def waiting? : PushPhase → Option Address
  | .clear node => some node
  | .exchange node => some node
  | _ => none

/-- The node of a producer that is still to be exchanged. -/
def State.waiting (s : State) (i : Nat) : List Address := ((s.pushes i).bind waiting?).toList

theorem pushes_of_getElem? {push : Option PushPhase} (hi : s.producers[i]? = some push) :
    s.pushes i = push := by
  rw [State.pushes, hi]
  rfl

/-- The pushes after one of them was changed. -/
theorem pushes_setIfInBounds {old new : Option PushPhase} (hi : s.producers[i]? = some old)
    (ht : t.producers = s.producers.setIfInBounds i new) :
    t.pushes = Function.update s.pushes i new := by
  rcases Array.getElem?_eq_some_iff.1 hi with ⟨hlt, -⟩
  funext j
  by_cases hji : j = i
  · subst hji
    simp [State.pushes, ht, hlt]
  · simp [State.pushes, ht, Function.update_of_ne hji,
      Array.getElem?_setIfInBounds_ne (Ne.symm hji)]

/-- A step of a push keeps its node waiting, or exchanges the tail for it. -/
theorem waiting?_step (q : Queue) (l : Links) (phase : PushPhase) :
    (waiting? phase).toList =
      (exchanged? phase).toList ++ ((openPush (phase.step q l).1).bind waiting?).toList := by
  cases phase <;> rfl

/-! ## What was exchanged and not popped -/

/-- The path of the queue holds what was exchanged and not popped, and each node is inside
once. -/
structure Sound (s : State) (chain : List Address) : Prop where
  carries : s.queue.Carries s.links s.pushes s.consumer chain
  exchanged_eq : s.exchanged.reverse = s.popped.reverse ++ content s.queue.stub chain
  nodup : s.inside.Nodup
  mem_inside : ∀ n, n ∈ s.inside ↔ n ∈ content s.queue.stub chain ∨ ∃ i, n ∈ s.waiting i
  stub_not_mem : s.queue.stub ∉ s.popped

/-- In the beginning there is no node but the stub. -/
theorem sound_start (nodes producers : Nat) : Sound (start nodes producers) [nodes] := by
  have hpushes : (start nodes producers).pushes = fun _ => none := by
    funext i
    simp only [State.pushes, start, Array.getElem?_replicate]
    split <;> rfl
  refine ⟨?_, by simp [start, content, Queue.new], List.nodup_nil, ?_, by simp [start]⟩
  · rw [hpushes]
    refine carries_new (by simp [start, Links.blank, Links.size]) ?_
    simp [start, Links.blank, Links.get]
  · intro n
    simp only [State.waiting, hpushes]
    simp [start, content, Queue.new]

theorem mem_waiting_iff {n : Address} :
    n ∈ s.waiting i ↔ ∃ phase, s.pushes i = some phase ∧ waiting? phase = some n := by
  simp [State.waiting, Option.bind_eq_some_iff]

/-- The node of a push is inside. -/
theorem Sound.mem_inside_of_node? (h : Sound s chain) {phase : PushPhase} {n : Address}
    (hi : s.pushes i = some phase) (hn : phase.node? = some n) : n ∈ s.inside := by
  rw [h.mem_inside]
  have hwaiting : waiting? phase = some n → ∃ i, n ∈ s.waiting i :=
    fun hw => ⟨i, mem_waiting_iff.2 ⟨phase, hi, hw⟩⟩
  cases phase with
  | clear node => exact Or.inr (hwaiting hn)
  | exchange node => exact Or.inr (hwaiting hn)
  | publish node former =>
      obtain rfl : node = n := Option.some.inj hn
      have hafter : after? chain former = some node := (h.carries.path.fits (some i) _ hi).1
      have hne : node ≠ s.queue.stub :=
        fun heq => h.carries.node?_ne_stub i _ hi (congrArg some heq)
      exact Or.inl (List.mem_filter.2 ⟨(mem_of_after? hafter).2, by simpa using hne⟩)
  | done => cases hn

/-- A producer begins to push a node that is in no queue. -/
theorem sound_push (h : Sound s chain) {node : Address} (hi : s.producers[i]? = some none)
    (hnode : node < s.queue.stub) (hinside : node ∉ s.inside)
    (ht : t = { s with
      producers := s.producers.setIfInBounds i (some (.clear node))
      inside := node :: s.inside }) : Sound t chain := by
  have hpushes : t.pushes = Function.update s.pushes i (some (.clear node)) :=
    pushes_setIfInBounds hi (by rw [ht])
  have hnone : s.pushes i = none := pushes_of_getElem? hi
  have hne : node ≠ s.queue.stub := Nat.ne_of_lt hnode
  have hchain : node ∉ chain := fun hmem =>
    hinside ((h.mem_inside node).2 (Or.inl (List.mem_filter.2 ⟨hmem, by simpa using hne⟩)))
  have hcarries := h.carries.begin hnone hne hchain
    (Nat.lt_trans hnode h.carries.stub_lt)
    fun j phase hj hn => hinside (h.mem_inside_of_node? hj hn)
  rw [← hpushes] at hcarries
  subst ht
  refine ⟨hcarries, h.exchanged_eq, List.nodup_cons.2 ⟨hinside, h.nodup⟩, ?_, h.stub_not_mem⟩
  intro n
  rw [List.mem_cons, h.mem_inside]
  constructor
  · rintro (rfl | hmem | ⟨j, hj⟩)
    · exact Or.inr ⟨i, by simp [State.waiting, hpushes, waiting?]⟩
    · exact Or.inl hmem
    · have hji : j ≠ i := by
        rintro rfl
        simp [State.waiting, hnone] at hj
      exact Or.inr ⟨j, by rwa [State.waiting, hpushes, Function.update_of_ne hji]⟩
  · rintro (hmem | ⟨j, hj⟩)
    · exact Or.inr (Or.inl hmem)
    · by_cases hji : j = i
      · subst hji
        left
        simpa [State.waiting, hpushes, waiting?] using hj
      · rw [State.waiting, hpushes, Function.update_of_ne hji] at hj
        exact Or.inr (Or.inr ⟨j, hj⟩)

/-- A step of a push appends to the content at the exchange. -/
theorem content_extend {q : Queue} {l : Links} {pop : Option PopPhase}
    {pushes : Nat → Option PushPhase} {phase : PushPhase} (h : Carries q l pushes pop chain)
    (hi : pushes i = some phase) :
    content q.stub (phase.extend chain) = content q.stub chain ++ (exchanged? phase).toList := by
  cases phase with
  | exchange node =>
      have hne : node ≠ q.stub := fun heq => h.node?_ne_stub i _ hi (congrArg some heq)
      simp [content, PushPhase.extend, exchanged?, hne]
  | _ => simp [PushPhase.extend, exchanged?]

/-- A step of a producer. -/
theorem sound_produce (h : Sound s chain) {phase : PushPhase}
    (hi : s.producers[i]? = some (some phase)) :
    Sound (s.produce i phase) (phase.extend chain) := by
  have hphase : s.pushes i = some phase := pushes_of_getElem? hi
  have hpushes : (s.produce i phase).pushes =
      Function.update s.pushes i (openPush (phase.step s.queue s.links).1) :=
    pushes_setIfInBounds hi rfl
  have hcarries := h.carries.produce hphase
  dsimp only at hcarries
  rw [← hpushes] at hcarries
  have hcontent : content (s.produce i phase).queue.stub (phase.extend chain) =
      content s.queue.stub chain ++ (exchanged? phase).toList := by
    rw [← content_extend h.carries hphase]
    exact congrArg (content · _) (PushPhase.stub_step s.queue s.links phase)
  have hexchanged : (s.produce i phase).exchanged = (exchanged? phase).toList ++ s.exchanged := by
    cases phase <;> rfl
  have hwaiting := waiting?_step s.queue s.links phase
  refine ⟨hcarries, ?_, h.nodup, fun n => ?_, ?_⟩
  · rw [hcontent, hexchanged, List.reverse_append, h.exchanged_eq, List.append_assoc]
    cases exchanged? phase <;> rfl
  · rw [hcontent, List.mem_append, or_assoc]
    refine (h.mem_inside n).trans (or_congr Iff.rfl ?_)
    constructor
    · rintro ⟨j, hj⟩
      by_cases hji : j = i
      · subst hji
        rw [State.waiting, hphase, Option.bind_some, hwaiting, List.mem_append] at hj
        rcases hj with hj | hj
        · exact Or.inl hj
        · exact Or.inr ⟨j, by rwa [State.waiting, hpushes, Function.update_self]⟩
      · exact Or.inr ⟨j, by rwa [State.waiting, hpushes, Function.update_of_ne hji]⟩
    · rintro (hj | ⟨j, hj⟩)
      · refine ⟨i, ?_⟩
        rw [State.waiting, hphase, Option.bind_some, hwaiting]
        exact List.mem_append_left _ hj
      · rw [State.waiting, hpushes] at hj
        by_cases hji : j = i
        · subst hji
          rw [Function.update_self] at hj
          refine ⟨j, ?_⟩
          rw [State.waiting, hphase, Option.bind_some, hwaiting]
          exact List.mem_append_right _ hj
        · rw [Function.update_of_ne hji] at hj
          exact ⟨j, hj⟩
  · have hstub : (s.produce i phase).queue.stub = s.queue.stub :=
      PushPhase.stub_step s.queue s.links phase
    rw [hstub]
    exact h.stub_not_mem

/-- The consumer begins to pop. -/
theorem sound_pop (h : Sound s chain) (hnone : s.consumer = none) :
    Sound { s with consumer := some .start } chain := by
  have hcarries := h.carries
  rw [hnone] at hcarries
  refine ⟨hcarries.setPop rfl rfl fun phase hphase => ?_, h.exchanged_eq, h.nodup, h.mem_inside,
    h.stub_not_mem⟩
  cases hphase
  trivial

/-- A step of the consumer. -/
theorem sound_consume (h : Sound s chain) {phase : PopPhase} (hphase : s.consumer = some phase) :
    ∃ chain', Sound (s.consume phase) chain' ∧
      content s.queue.stub chain =
        (phase.step s.queue s.links).1.popped?.toList ++ content s.queue.stub chain' := by
  have hcarries := h.carries
  rw [hphase] at hcarries
  rcases hcarries.consume.1 with ⟨chain', hnext, hcontent⟩
  have hstub := PopPhase.stub_step s.queue s.links phase
  refine ⟨chain', ?_, hcontent⟩
  rw [consume_eq]
  have hnodup : (content s.queue.stub chain).Nodup := h.carries.path.nodup.filter _
  cases hpopped : (phase.step s.queue s.links).1.popped? with
  | none =>
      simp only [hpopped, Option.toList_none, List.nil_append] at hcontent
      refine ⟨hnext, ?_, h.nodup, fun n => ?_, ?_⟩
      · simp only [hstub, Option.toList_none, List.nil_append]
        rw [← hcontent]
        exact h.exchanged_eq
      · simp only [hstub]
        rw [← hcontent]
        exact h.mem_inside n
      · simp only [hstub, Option.toList_none, List.nil_append]
        exact h.stub_not_mem
  | some node =>
      simp only [hpopped, Option.toList_some, List.singleton_append] at hcontent
      have hmem : node ∈ content s.queue.stub chain := by
        rw [hcontent]
        exact List.mem_cons_self
      rcases List.mem_filter.1 hmem with ⟨hchain, hne⟩
      rw [hcontent] at hnodup
      refine ⟨hnext, ?_, h.nodup.erase node, fun n => ?_, ?_⟩
      · simp only [hstub, Option.toList_some, List.singleton_append, List.reverse_cons]
        rw [h.exchanged_eq, hcontent, List.append_assoc]
        rfl
      · simp only [hstub, Option.elim_some]
        rw [h.nodup.mem_erase_iff, h.mem_inside, hcontent, List.mem_cons]
        constructor
        · rintro ⟨hn, (rfl | hmem') | hwaiting⟩
          · exact absurd rfl hn
          · exact Or.inl hmem'
          · exact Or.inr hwaiting
        · rintro (hmem' | ⟨i, hi⟩)
          · refine ⟨?_, Or.inl (Or.inr hmem')⟩
            rintro rfl
            exact (List.nodup_cons.1 hnodup).1 hmem'
          · refine ⟨?_, Or.inr ⟨i, hi⟩⟩
            rintro rfl
            -- a node that waits for its exchange is not on the path
            rcases mem_waiting_iff.1 hi with ⟨push, hpush, hwaiting⟩
            have hfits := h.carries.path.fits (some i) push hpush
            cases push with
            | clear node' => exact hfits.1 (Option.some.inj hwaiting ▸ hchain)
            | exchange node' => exact hfits.1 (Option.some.inj hwaiting ▸ hchain)
            | publish node' former => cases hwaiting
            | done => cases hwaiting
      · simp only [hstub, Option.toList_some, List.singleton_append, List.mem_cons, not_or]
        exact ⟨fun heq => by simp [heq] at hne, h.stub_not_mem⟩

/-- A step leaves a path that holds what was exchanged and not popped. -/
theorem sound_step (h : Sound s chain) (hstep : step? s m = some t) :
    ∃ chain', Sound t chain' := by
  rcases step_cases hstep with ⟨i, node, -, hi, hnode, hinside, ht⟩ | ⟨i, phase, -, hi, rfl⟩ |
    ⟨-, hnone, rfl⟩ | ⟨phase, -, hphase, rfl⟩
  · exact ⟨chain, sound_push h hi hnode hinside ht⟩
  · exact ⟨_, sound_produce h hi⟩
  · exact ⟨chain, sound_pop h hnone⟩
  · rcases sound_consume h hphase with ⟨chain', hnext, -⟩
    exact ⟨chain', hnext⟩

/-! ## The order of the exchanges -/

/-- The exchanges are noted in order. -/
theorem exchanged_step (hstep : step? s m = some t) :
    t.exchanged.reverse = s.exchanged.reverse ++ (exchange? s m).toList.map Prod.snd := by
  rcases step_cases hstep with ⟨i, node, rfl, -, -, -, rfl⟩ | ⟨i, phase, rfl, hi, rfl⟩ |
    ⟨rfl, -, rfl⟩ | ⟨phase, rfl, -, rfl⟩
  · simp [exchange?]
  · cases phase <;> simp [exchange?, pushes_of_getElem? hi, State.produce]
  · simp [exchange?]
  · rw [consume_eq]
    simp [exchange?]

/-- A producer exchanges its nodes in the order of its pushes. -/
theorem waiting_step (hstep : step? s m = some t) (i : Nat) :
    entriesOf i (exchange? s m).toList ++ t.waiting i =
      s.waiting i ++ entriesOf i m.call?.toList := by
  rcases step_cases hstep with ⟨j, node, rfl, hj, -, -, ht⟩ | ⟨j, phase, rfl, hj, rfl⟩ |
    ⟨rfl, -, rfl⟩ | ⟨phase, rfl, -, rfl⟩
  · have hpushes : t.pushes = Function.update s.pushes j (some (.clear node)) :=
      pushes_setIfInBounds hj (by rw [ht])
    by_cases hij : i = j
    · subst hij
      simp [exchange?, Move.call?, entriesOf, State.waiting, hpushes, pushes_of_getElem? hj,
        waiting?]
    · simp [exchange?, Move.call?, entriesOf, State.waiting, hpushes, Function.update_of_ne hij,
        Ne.symm hij]
  · have hphase := pushes_of_getElem? hj
    have hpushes : (s.produce j phase).pushes =
        Function.update s.pushes j (openPush (phase.step s.queue s.links).1) :=
      pushes_setIfInBounds hj rfl
    by_cases hij : i = j
    · subst hij
      cases phase <;>
        simp [exchange?, Move.call?, entriesOf, State.waiting, hpushes, hphase, PushPhase.step,
          openPush, waiting?]
    · cases phase <;>
        simp [exchange?, Move.call?, entriesOf, State.waiting, hpushes, hphase,
          Function.update_of_ne hij, Ne.symm hij]
  · simp [exchange?, Move.call?, entriesOf, State.waiting, State.pushes]
  · rw [consume_eq]
    simp [exchange?, Move.call?, entriesOf, State.waiting, State.pushes]

/-- A node that is given to the queue stays inside until it is popped. -/
theorem count_step (h : Sound s chain) (hstep : step? s m = some t) (n : Address) :
    (m.call?.toList.map Prod.snd).count n + (s.popped.count n + s.inside.count n) =
      t.popped.count n + t.inside.count n := by
  rcases step_cases hstep with ⟨i, node, rfl, -, -, -, rfl⟩ | ⟨i, phase, rfl, -, rfl⟩ |
    ⟨rfl, -, rfl⟩ | ⟨phase, rfl, hphase, rfl⟩
  · simp only [Move.call?, Option.toList_some, List.map_cons, List.map_nil, List.count_cons,
      List.count_nil]
    omega
  · simp [Move.call?, State.produce]
  · simp [Move.call?]
  · rcases sound_consume h hphase with ⟨chain', -, hcontent⟩
    rw [consume_eq]
    cases hpopped : (phase.step s.queue s.links).1.popped? with
    | none => simp [Move.call?]
    | some node =>
        rw [hpopped] at hcontent
        have hmem : node ∈ s.inside := by
          refine (h.mem_inside node).2 (Or.inl ?_)
          rw [hcontent]
          exact List.mem_cons_self
        have hperm := (List.perm_cons_erase hmem).count_eq n
        simp only [Move.call?, Option.toList_none, List.map_nil, List.count_nil, Option.toList_some,
          List.singleton_append, Option.elim_some, List.count_cons] at hperm ⊢
        omega

theorem entriesOf_append {β : Type} (i : Nat) (v w : List (Nat × β)) :
    entriesOf i (v ++ w) = entriesOf i v ++ entriesOf i w := by
  simp [entriesOf]

theorem calls_cons (m : Move) (moves : List Move) :
    calls (m :: moves) = m.call?.toList ++ calls moves := by
  cases hcall : m.call? with
  | none => simp [calls, hcall]
  | some call => simp [calls, hcall]

/-- What a run leaves, and the order of its exchanges. -/
theorem sound_run {moves : List Move} (h : Sound s chain) (hrun : run? s moves = some t) :
    (∃ chain', Sound t chain') ∧
      t.exchanged.reverse = s.exchanged.reverse ++ (exchanges s moves).map Prod.snd ∧
      (∀ i, entriesOf i (exchanges s moves) ++ t.waiting i =
        s.waiting i ++ entriesOf i (calls moves)) ∧
      ∀ n, ((calls moves).map Prod.snd).count n + (s.popped.count n + s.inside.count n) =
        t.popped.count n + t.inside.count n := by
  induction moves generalizing s chain with
  | nil =>
      cases hrun
      refine ⟨⟨chain, h⟩, ?_, fun i => ?_, fun n => ?_⟩
      · simp [exchanges]
      · simp [exchanges, calls, entriesOf]
      · simp [calls]
  | cons m moves ih =>
      rw [run?] at hrun
      cases hstep : step? s m with
      | none =>
          rw [hstep] at hrun
          cases hrun
      | some u =>
          rw [hstep] at hrun
          rcases sound_step h hstep with ⟨chain', hu⟩
          rcases ih hu hrun with ⟨hsound, horder, hwaiting, hcount⟩
          have hexchanges :
              exchanges s (m :: moves) = (exchange? s m).toList ++ exchanges u moves := by
            rw [exchanges, hstep]
          refine ⟨hsound, ?_, fun i => ?_, fun n => ?_⟩
          · rw [horder, exchanged_step hstep, hexchanges, List.map_append, List.append_assoc]
          · rw [hexchanges, calls_cons, entriesOf_append, entriesOf_append, List.append_assoc,
              hwaiting i, ← List.append_assoc, waiting_step hstep i, List.append_assoc]
          · have hone := count_step h hstep n
            have hrest := hcount n
            rw [calls_cons, List.map_append, List.count_append]
            omega

/-! ## Popping without producers -/

/-- A bound for the steps until a pop comes back without a node. -/
def weight (s : State) (chain : List Address) : Nat :=
  11 * (content s.queue.stub chain).length + (s.consumer.map PopPhase.rank).getD 11

/-- Without producers every step that does not end in vain brings the consumer closer to the
end. -/
theorem exists_weight_lt (h : Sound s chain) (hidle : ∀ i, s.pushes i = none) {phase : PopPhase}
    (hphase : s.consumer = some phase)
    (hdone : (phase.step s.queue s.links).1 ≠ .done none) :
    ∃ chain', Sound (s.consume phase) chain' ∧
      weight (s.consume phase) chain' < weight s chain := by
  rcases sound_consume h hphase with ⟨chain', hnext, hcontent⟩
  refine ⟨chain', hnext, ?_⟩
  have hcarries := h.carries
  rw [show s.pushes = fun _ => none from funext hidle, hphase] at hcarries
  have hrank := rank_step_lt hcarries
  have hlength := congrArg List.length hcontent
  rw [consume_eq]
  simp only [weight, hphase, Option.map_some, Option.getD_some, PopPhase.stub_step]
  cases hstep : (phase.step s.queue s.links).1 with
  | done node =>
      cases node with
      | none => exact absurd hstep hdone
      | some node =>
          rw [hstep] at hlength
          simp only [PopPhase.popped?, Option.toList_some, List.singleton_append,
            List.length_cons] at hlength
          simp only [PopPhase.open?, Option.map_none, Option.getD_none]
          omega
  | _ =>
      rw [hstep] at hlength hrank
      simp only [PopPhase.popped?, Option.toList_none, List.nil_append] at hlength
      simp only [PopPhase.open?, Option.map_some, Option.getD_some]
      omega

/-- Without producers popping comes to an end, and the queue is empty then. -/
theorem popUntilNone_of_sound {steps : Nat} (h : Sound s chain) (hidle : ∀ i, s.pushes i = none)
    (hsteps : weight s chain < steps) :
    ∃ t, popUntilNone steps s = some t ∧ t.popped.reverse = s.exchanged.reverse ∧ t.inside = [] ∧
      t.queue.isEmpty t.links = true := by
  induction steps generalizing s chain with
  | zero => omega
  | succ steps ih =>
      cases hconsumer : s.consumer with
      | none =>
          simp only [popUntilNone, hconsumer]
          refine ih (sound_pop h hconsumer) hidle ?_
          simp only [weight, hconsumer, Option.map_none, Option.getD_none, Option.map_some,
            Option.getD_some, PopPhase.rank] at hsteps ⊢
          omega
      | some phase =>
          have hpushes : (s.consume phase).pushes = s.pushes := by
            rw [consume_eq]
            rfl
          have hexchanged : (s.consume phase).exchanged = s.exchanged := by rw [consume_eq]
          simp only [popUntilNone, hconsumer]
          by_cases hdone : (phase.step s.queue s.links).1 = .done none
          · rw [if_pos hdone]
            rcases sound_consume h hconsumer with ⟨chain', hnext, hcontent⟩
            have hcarries := h.carries
            rw [hconsumer] at hcarries
            rw [hcarries.consume.2 hdone, hdone] at hcontent
            have hstub : (s.consume phase).queue.stub = s.queue.stub := by
              rw [consume_eq]
              exact PopPhase.stub_step s.queue s.links phase
            have hnil : content (s.consume phase).queue.stub chain' = [] := by
              rw [hstub]
              exact hcontent.symm
            refine ⟨_, rfl, ?_, ?_, hnext.carries.isEmpty_of_content hnil⟩
            · rw [← hexchanged, hnext.exchanged_eq, hnil, List.append_nil]
            · refine List.eq_nil_iff_forall_not_mem.2 fun n hn => ?_
              rcases (hnext.mem_inside n).1 hn with hn | ⟨i, hi⟩
              · rw [hnil] at hn
                cases hn
              · simp [State.waiting, hpushes, hidle i] at hi
          · rw [if_neg hdone]
            rcases exists_weight_lt h hidle hconsumer hdone with ⟨chain', hnext, hlt⟩
            rw [← hexchanged]
            exact ih hnext (fun i => by rw [hpushes, hidle i]) (by omega)

/-! ## What every run leads to -/

/-- What producers and a consumer can rely on after some moves that exchanged the tail in an
order. -/
structure State.IsOrderly (s : State) (moves : List Move) (order : List (Nat × Address)) :
    Prop where
  /-- The nodes come out in the order of the exchanges. -/
  popped_prefix : s.popped.reverse <+: order.map Prod.snd
  /-- Every push of a node is answered by one pop of it, or the node is inside. -/
  count_eq : ∀ node, ((calls moves).map Prod.snd).count node =
    s.popped.count node + s.inside.count node
  nodup : s.inside.Nodup
  stub_not_mem : s.queue.stub ∉ s.popped
  /-- A pop comes back without a node only if it reads the tail at a time at which all nodes that
  were exchanged have been popped. -/
  empty_only : ∀ phase, s.consumer = some phase →
    (phase.step s.queue s.links).1 = .done none →
      phase = .readTailAtStub ∧ s.popped.reverse = order.map Prod.snd
  /-- Once the producers are through, popping until there is no node yields all nodes, those of a
  producer in the order of its pushes. -/
  drains : (∀ i, s.pushes i = none) → (∀ i, entriesOf i order = entriesOf i (calls moves)) ∧
    ∃ steps t, popUntilNone steps s = some t ∧ t.popped.reverse = order.map Prod.snd ∧
      t.inside = [] ∧ t.queue.isEmpty t.links = true

/-- Only at its read of the tail a pop finds that there is no node. -/
theorem eq_readTailAtStub_of_done {q : Queue} {l : Links} {phase : PopPhase}
    {pushes : Nat → Option PushPhase} (h : Carries q l pushes (some phase) chain)
    (hdone : (phase.step q l).1 = .done none) : phase = .readTailAtStub := by
  have hfits := h.pop_fits phase rfl
  cases phase with
  | readTailAtStub => rfl
  | done node => exact hfits.elim
  | _ =>
      simp only [PopPhase.step, PopPhase.handOut] at hdone
      repeat' split at hdone
      all_goals cases hdone

/-- However the steps of producers and consumer interleave, nodes come out of a queue in the order
of the exchanges and once for each push, and none is missed. -/
theorem isOrderly_run {nodes producers : Nat} {moves : List Move}
    (hrun : run? (start nodes producers) moves = some s) :
    s.IsOrderly moves (exchanges (start nodes producers) moves) := by
  rcases sound_run (sound_start nodes producers) hrun with
    ⟨⟨chain, hsound⟩, horder, hwaiting, hcount⟩
  have horder' : s.exchanged.reverse =
      (exchanges (start nodes producers) moves).map Prod.snd := by
    simpa [start] using horder
  have hstart : ∀ i, (start nodes producers).waiting i = [] := by
    intro i
    simp only [State.waiting, State.pushes, start, Array.getElem?_replicate]
    split <;> rfl
  exact {
    popped_prefix := by
      rw [← horder', hsound.exchanged_eq]
      exact List.prefix_append _ _
    count_eq := by
      intro node
      simpa [start] using hcount node
    nodup := hsound.nodup
    stub_not_mem := hsound.stub_not_mem
    empty_only := by
      intro phase hphase hdone
      have hcarries := hsound.carries
      rw [hphase] at hcarries
      refine ⟨eq_readTailAtStub_of_done hcarries hdone, ?_⟩
      rw [← horder', hsound.exchanged_eq, hcarries.consume.2 hdone, List.append_nil]
    drains := by
      intro hidle
      refine ⟨fun i => ?_, ?_⟩
      · have hnone : s.waiting i = [] := by rw [State.waiting, hidle i]; rfl
        have horder := hwaiting i
        rwa [hnone, hstart i, List.append_nil, List.nil_append] at horder
      · rcases popUntilNone_of_sound hsound hidle (Nat.lt_succ_self _) with
          ⟨t, hpop, hpopped, hinside, hempty⟩
        exact ⟨_, t, hpop, hpopped.trans horder', hinside, hempty⟩ }

/-- The consumer puts the stub behind the last node while another producer exchanges the tail
and publishes late; a node is popped and pushed again. -/
def overlapping : List Move :=
  [.push 0 0, .produce 0, .produce 0, .produce 0,
    .pop, .consume, .consume, .consume, .consume,
    .push 1 1, .produce 1, .produce 1, .consume, .consume, .consume,
    .produce 1, .consume,
    .push 0 0, .produce 0, .produce 0, .produce 0]

theorem isOrderly_run_overlapping :
    ∃ s, run? (start 2 2) overlapping = some s ∧ s.popped = [0] ∧
      exchanges (start 2 2) overlapping = [(0, 0), (1, 1), (0, 0)] ∧
      s.IsOrderly overlapping [(0, 0), (1, 1), (0, 0)] := by
  have hrun : run? (start 2 2) overlapping = some
      { links := ⟨#[none, some 2, some 0]⟩, queue := ⟨2, 1, 0⟩, producers := #[none, none],
        inside := [0, 1], exchanged := [0, 1, 0], popped := [0], answer := some (some 0) } := rfl
  exact ⟨_, hrun, rfl, rfl, isOrderly_run hrun⟩

end QueueThreads

end EventLog
