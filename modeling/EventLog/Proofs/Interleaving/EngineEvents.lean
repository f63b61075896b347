import EventLog.Proofs.Interleaving.EngineRecords

/-!
# The events of an engine under threads

A producer puts its event into the record that it acquired, which is empty, and the event stays
there until the consumer delivers or discards it.  The order of the events is that in which the
producers exchange the tail: the first of them were delivered, those after them discarded, and
the rest waits in the queue and with the consumer.

Main results:

- `EngineThreads.Events`: where the events are, and in which order.
- `EngineThreads.events_construct`: a producer fills an empty record.
- `EngineThreads.events_push`: the exchange of the tail puts an event last.
- `EngineThreads.Events.take`: the consumer handles the first event that waits.
-/

namespace EventLog

namespace EngineThreads

open QueueThreads (waiting? exchanged? openPush entriesOf entriesOf_append)
open Queue (Carries content)

variable {α : Type}

/-! ## Events with producers and consumer -/

/-- The record that a producer filled and has not handed to the queue, with its event. -/
def ProducerPhase.filled? : ProducerPhase α → Option (Nat × α)
  | .push a phase => (waiting? phase).map fun index => (index, a)
  | _ => none

/-- The event of a call that may come into the queue yet. -/
def ProducerPhase.offered? : ProducerPhase α → Option α
  | .checkStarted a => some a
  | .lock a => some a
  | .launch a => some a
  | .markStarted a _ => some a
  | .conclude a _ => some a
  | .unlock a => some a
  | .enter a => some a
  | .checkAccepting a => some a
  | .acquire a _ => some a
  | .construct a _ => some a
  | .push a phase => (waiting? phase).map fun _ => a
  | _ => none

/-- What a producer may bring into the queue yet, in order. -/
def Producer.remaining (p : Producer α) : List α := p.phase.offered?.toList ++ p.todo

/-- The same of the producer with a number. -/
def State.remaining (s : State α) (i : Nat) : List α :=
  (s.producers[i]?).elim [] Producer.remaining

/-- The record whose event the consumer is about to deliver or to discard. -/
def ConsumerPhase.handle? : ConsumerPhase → Option Nat
  | .handle index => some index
  | _ => none

/-- The records whose events came into the queue and were neither delivered nor discarded, in
order. -/
def State.unhandled (s : State α) (c : ConsumerPhase) (chain : List Address) : List Nat :=
  c.handle?.toList ++ content s.shared.queue.stub chain

/-- Where the events are.  The events of `order` came into the queue, `lapsed` were discarded, and
`pending` wait; `todo` is what each producer was to offer. -/
structure Events (s : State α) (c : ConsumerPhase) (capacity : Nat) (chain : List Address)
    (order : List (Nat × α)) (lapsed pending : List α) (todo : Array (List α)) : Prop where
  size_eq : s.shared.slots.size = capacity
  occupied : ∀ n, s.shared.slots.isOccupied n = true → n ∈ s.unhandled c chain ∨
    ∃ (i : Nat) (p : Producer α) (a : α), s.producers[i]? = some p ∧ p.phase.filled? = some (n, a)
  pending_eq : (s.unhandled c chain).map s.shared.slots.payload? = pending.map some
  filled : ∀ (i : Nat) (p : Producer α) (n : Nat) (a : α), s.producers[i]? = some p →
    p.phase.filled? = some (n, a) → s.shared.slots.payload? n = some a
  order_eq : order.map Prod.snd = s.delivered.reverse ++ lapsed ++ pending
  /-- What a producer brought into the queue and what it may bring yet are in the order of its
  calls. -/
  calls : ∀ i, (entriesOf i order ++ s.remaining i).Sublist (todo[i]?.getD [])

variable {s t : State α} {c c' : ConsumerPhase} {first : UInt32} {capacity i n : Nat} {a : α}
  {free : List Nat} {chain chain' : List Address} {p p' : Producer α}
  {order : List (Nat × α)} {lapsed pending : List α} {todo : Array (List α)}

/-- A filled record is its producer's. -/
theorem mem_records_of_filled? (h : p.phase.filled? = some (n, a)) : n ∈ p.view.records := by
  cases hphase : p.phase with
  | push b phase =>
      rw [hphase] at h
      rcases Option.map_eq_some_iff.1 h with ⟨index, hwaiting, heq⟩
      cases heq
      refine List.mem_append_right _ ?_
      simp [Producer.view, hphase, ProducerPhase.holds, hwaiting]
  | _ =>
      rw [hphase] at h
      cases h

theorem remaining_of_producer (hi : s.producers[i]? = some p) : s.remaining i = p.remaining := by
  rw [State.remaining, hi, Option.elim_some]

theorem payload?_blank (capacity n : Nat) : (Slots.blank capacity : Slots α).payload? n = none := by
  simp only [Slots.payload?, Slots.blank, Array.getElem?_replicate]
  split <;> rfl

/-- In the beginning there are no events. -/
theorem events_new {drains : Bool} (hnew : State.new capacity drains todo = .ok s) :
    Events s .exhausted capacity [capacity] [] [] [] todo := by
  have hidle : ∀ {i : Nat} {w : Producer α}, s.producers[i]? = some w → w.phase = .idle :=
    fun hw => phase_eq_of_new hnew (Array.mem_toList_iff.2 (Array.mem_of_getElem? hw))
  rcases eq_of_new hnew with ⟨pool, -, rfl⟩
  refine ⟨by simp [Slots.blank, Slots.size], ?_, ?_, ?_, rfl, fun i => ?_⟩
  · intro n hoccupied
    rw [Slots.isOccupied, payload?_blank] at hoccupied
    cases hoccupied
  · simp [State.unhandled, ConsumerPhase.handle?, content, Queue.new]
  · intro i w n a hw hfilled
    rw [hidle hw] at hfilled
    cases hfilled
  · simp only [State.remaining, Array.getElem?_map]
    cases todo[i]? with
    | none => simp [entriesOf]
    | some events => simp [entriesOf, Producer.remaining, ProducerPhase.offered?]

/-! ## Steps of a producer -/

/-- A producer that brings events into the queue does so in the order of its calls. -/
theorem Events.calls_producer (h : Events s c capacity chain order lapsed pending todo)
    (hi : s.producers[i]? = some p) (hproducers : t.producers = s.producers.setIfInBounds i p')
    {new : List α} (hremaining : (new ++ p'.remaining).Sublist p.remaining) (j : Nat) :
    (entriesOf j (order ++ new.map fun a => (i, a)) ++ t.remaining j).Sublist
      (todo[j]?.getD []) := by
  have hcalls := h.calls j
  rw [entriesOf_append]
  by_cases hji : j = i
  · subst hji
    have hself : entriesOf j (new.map fun a => (j, a)) = new := by
      simp [entriesOf, List.filter_map, Function.comp_def]
    have ht : t.remaining j = p'.remaining :=
      remaining_of_producer ((getElem?_setProducer hi hproducers).2 (Or.inl ⟨rfl, rfl⟩))
    rw [hself, ht, List.append_assoc]
    rw [remaining_of_producer hi] at hcalls
    exact (hremaining.append_left _).trans hcalls
  · have hother : entriesOf j (new.map fun a => (i, a)) = [] := by
      simp [entriesOf, List.filter_map, Function.comp_def, Ne.symm hji]
    have ht : t.remaining j = s.remaining j := by
      rw [State.remaining, State.remaining, hproducers,
        Array.getElem?_setIfInBounds_ne (Ne.symm hji)]
    rw [hother, ht, List.append_nil]
    exact hcalls

/-- A producer that hands records with events to the queue, or none. -/
theorem Events.producer (h : Events s c capacity chain order lapsed pending todo)
    (hi : s.producers[i]? = some p) (hproducers : t.producers = s.producers.setIfInBounds i p')
    (hslots : t.shared.slots = s.shared.slots)
    (hstub : t.shared.queue.stub = s.shared.queue.stub) (hdelivered : t.delivered = s.delivered)
    {records : List Nat} {new : List α}
    (hcontent : content s.shared.queue.stub chain' = content s.shared.queue.stub chain ++ records)
    (hrecords : records.map s.shared.slots.payload? = new.map some)
    (hfilled : ∀ {n a}, p'.phase.filled? = some (n, a) → p.phase.filled? = some (n, a))
    (hhanded : ∀ {n a}, p.phase.filled? = some (n, a) → p'.phase.filled? = some (n, a) ∨
      n ∈ records)
    (hremaining : (new ++ p'.remaining).Sublist p.remaining) :
    Events t c capacity chain' (order ++ new.map fun a => (i, a)) lapsed (pending ++ new) todo := by
  have hget : ∀ {j w}, t.producers[j]? = some w ↔
      j = i ∧ w = p' ∨ j ≠ i ∧ s.producers[j]? = some w := getElem?_setProducer hi hproducers
  have hunhandled : t.unhandled c chain' = s.unhandled c chain ++ records := by
    rw [State.unhandled, State.unhandled, hstub, hcontent, List.append_assoc]
  exact {
    size_eq := by rw [hslots, h.size_eq]
    occupied := by
      intro n hn
      rw [hslots] at hn
      rw [hunhandled, List.mem_append]
      rcases h.occupied n hn with hmem | ⟨j, w, a, hw, hwfilled⟩
      · exact Or.inl (Or.inl hmem)
      · by_cases hji : j = i
        · subst hji
          obtain rfl : p = w := Option.some.inj (hi.symm.trans hw)
          rcases hhanded hwfilled with hp' | hmem
          · exact Or.inr ⟨j, p', a, hget.2 (Or.inl ⟨rfl, rfl⟩), hp'⟩
          · exact Or.inl (Or.inr hmem)
        · exact Or.inr ⟨j, w, a, hget.2 (Or.inr ⟨hji, hw⟩), hwfilled⟩
    pending_eq := by
      rw [hunhandled, hslots, List.map_append, List.map_append, h.pending_eq, hrecords]
    filled := by
      intro j w n a hw hwfilled
      rw [hslots]
      rcases hget.1 hw with ⟨rfl, rfl⟩ | ⟨-, hw⟩
      · exact h.filled j p n a hi (hfilled hwfilled)
      · exact h.filled j w n a hw hwfilled
    order_eq := by
      rw [hdelivered, List.map_append, h.order_eq, List.append_assoc]
      simp [Function.comp_def]
    calls := h.calls_producer hi hproducers hremaining }

/-- A producer that keeps its record, if it filled one. -/
theorem Events.producer_keep (h : Events s c capacity chain order lapsed pending todo)
    (hi : s.producers[i]? = some p) (hproducers : t.producers = s.producers.setIfInBounds i p')
    (hslots : t.shared.slots = s.shared.slots)
    (hstub : t.shared.queue.stub = s.shared.queue.stub) (hdelivered : t.delivered = s.delivered)
    (hfilled : p'.phase.filled? = p.phase.filled?)
    (hremaining : p'.remaining.Sublist p.remaining) :
    Events t c capacity chain order lapsed pending todo := by
  have hnext : Events t c capacity chain (order ++ [].map fun a => (i, a)) lapsed (pending ++ [])
      todo :=
    h.producer hi hproducers hslots hstub hdelivered (List.append_nil _).symm rfl
      (fun hn => hfilled ▸ hn) (fun hn => Or.inl (hfilled ▸ hn)) hremaining
  rwa [List.map_nil, List.append_nil, List.append_nil] at hnext

/-- What a producer has does not wait. -/
theorem Records.not_mem_unhandled (hr : Records s c first capacity free chain)
    (hi : s.producers[i]? = some p) (hn : n ∈ p.view.records) : n ∉ s.unhandled c chain := by
  rcases hr.apart hi hn with ⟨-, hcontent, hconsumer, -⟩
  intro hmem
  rcases List.mem_append.1 hmem with hmem | hmem
  · cases c with
    | handle index =>
        obtain rfl : n = index := by simpa [ConsumerPhase.handle?] using hmem
        exact hconsumer (by simp [ConsumerPhase.view, records_eq_holds])
    | _ => cases hmem
  · exact hcontent hmem

/-- The record that a producer acquired is empty. -/
theorem Records.isOccupied_eq_false (hr : Records s c first capacity free chain)
    (h : Events s c capacity chain order lapsed pending todo) (hi : s.producers[i]? = some p)
    (hphase : p.phase = .construct a n) : s.shared.slots.isOccupied n = false := by
  have hholds : n ∈ p.view.records := by
    simp [PoolThreads.Worker.records, Producer.view, hphase, ProducerPhase.holds]
  rcases hr.apart hi hholds with ⟨-, -, -, hothers⟩
  refine Bool.eq_false_iff.2 fun hoccupied => ?_
  rcases h.occupied n hoccupied with hmem | ⟨j, w, b, hw, hfilled⟩
  · exact hr.not_mem_unhandled hi hholds hmem
  · refine hothers j w ?_ hw (mem_records_of_filled? hfilled)
    rintro rfl
    obtain rfl : p = w := Option.some.inj (hi.symm.trans hw)
    rw [hphase] at hfilled
    cases hfilled

/-- A producer fills its record, which is empty. -/
theorem events_construct (hr : Records s c first capacity free chain)
    (h : Events s c capacity chain order lapsed pending todo) (hi : s.producers[i]? = some p)
    (hphase : p.phase = .construct a n) :
    ∃ slots, s.shared.slots.place n a = .ok slots ∧
      ∀ {t : State α}, t.producers = s.producers.setIfInBounds i
          { p with phase := .push a (.clear n) } →
        t.shared.slots = slots → t.shared.queue.stub = s.shared.queue.stub →
        t.delivered = s.delivered → Events t c capacity chain order lapsed pending todo := by
  have hholds : n ∈ p.view.records := by
    simp [PoolThreads.Worker.records, Producer.view, hphase, ProducerPhase.holds]
  rcases hr.apart hi hholds with ⟨hlt, -, -, hothers⟩
  have hempty := hr.isOccupied_eq_false h hi hphase
  obtain ⟨slots, hplace⟩ : ∃ slots, s.shared.slots.place n a = .ok slots :=
    ⟨_, by rw [Slots.place, if_neg (by simp [hempty])]⟩
  refine ⟨slots, hplace, fun {t} hproducers hslots hstub hdelivered => ?_⟩
  have hget : ∀ {j w}, t.producers[j]? = some w ↔
      j = i ∧ w = { p with phase := .push a (.clear n) } ∨ j ≠ i ∧ s.producers[j]? = some w :=
    getElem?_setProducer hi hproducers
  have hself : t.shared.slots.payload? n = some a := by
    rw [hslots, Slots.payload?_place hplace, if_pos ⟨rfl, h.size_eq ▸ hlt⟩]
  have hother : ∀ {m}, m ≠ n → t.shared.slots.payload? m = s.shared.slots.payload? m := by
    intro m hm
    rw [hslots, Slots.payload?_place hplace, if_neg fun heq => hm heq.1]
  have hunhandled : t.unhandled c chain = s.unhandled c chain := by
    rw [State.unhandled, State.unhandled, hstub]
  exact {
    size_eq := by rw [hslots, Slots.size_place hplace, h.size_eq]
    occupied := by
      intro m hm
      rw [hunhandled]
      by_cases hmn : m = n
      · subst hmn
        exact Or.inr ⟨i, _, a, hget.2 (Or.inl ⟨rfl, rfl⟩), rfl⟩
      · rw [Slots.isOccupied, hother hmn] at hm
        rcases h.occupied m hm with hmem | ⟨j, w, b, hw, hfilled⟩
        · exact Or.inl hmem
        · refine Or.inr ⟨j, w, b, hget.2 (Or.inr ⟨?_, hw⟩), hfilled⟩
          rintro rfl
          obtain rfl : p = w := Option.some.inj (hi.symm.trans hw)
          rw [hphase] at hfilled
          cases hfilled
    pending_eq := by
      rw [hunhandled, ← h.pending_eq]
      refine List.map_congr_left fun m hm => hother ?_
      rintro rfl
      exact hr.not_mem_unhandled hi hholds hm
    filled := by
      intro j w m b hw hfilled
      rcases hget.1 hw with ⟨rfl, rfl⟩ | ⟨hji, hold⟩
      · cases hfilled
        exact hself
      · refine (hother ?_).trans (h.filled j w m b hold hfilled)
        rintro rfl
        exact hothers j w hji hold (mem_records_of_filled? hfilled)
    order_eq := by rw [hdelivered, h.order_eq]
    calls := by
      have hremaining : ([] ++ Producer.remaining { p with phase := .push a (.clear n) }).Sublist
          p.remaining := by
        simp [Producer.remaining, hphase, ProducerPhase.offered?, waiting?]
      intro j
      have hcalls := h.calls_producer hi hproducers hremaining j
      rwa [List.map_nil, List.append_nil] at hcalls }

/-- A step of a push keeps the record, or hands it to the queue. -/
theorem filled?_afterPush (q : Queue) (l : Links) (a : α) (phase : Queue.PushPhase) :
    (ProducerPhase.afterPush a (phase.step q l).1).filled? =
      if exchanged? phase = none then (ProducerPhase.push a phase).filled? else none := by
  cases phase <;> rfl

theorem offered?_afterPush (q : Queue) (l : Links) (a : α) (phase : Queue.PushPhase) :
    (ProducerPhase.push a phase).offered?.toList =
      ((exchanged? phase).map fun _ => a).toList ++
        (ProducerPhase.afterPush a (phase.step q l).1).offered?.toList := by
  cases phase <;> rfl

/-- A step of a push puts the event last if it exchanges the tail. -/
theorem events_push (hr : Records s c first capacity free chain)
    (h : Events s c capacity chain order lapsed pending todo) (hi : s.producers[i]? = some p)
    {phase : Queue.PushPhase} (hphase : p.phase = .push a phase) :
    let next := phase.step s.shared.queue s.shared.links
    let new := ((exchanged? phase).map fun _ => a).toList
    Events ((s.setQueue next.2.1 next.2.2).setProducer i { p with phase := .afterPush a next.1 })
      c capacity (phase.extend chain) (order ++ new.map fun a => (i, a)) lapsed (pending ++ new)
      todo := by
  have hpush : s.pushes i = some phase := by
    rw [pushes_of_producer hi, hphase]
    rfl
  have hcontent := QueueThreads.content_extend hr.carries hpush
  have hexchanged : ∀ {m}, exchanged? phase = some m → p.phase.filled? = some (m, a) := by
    intro m hm
    rw [hphase]
    cases phase <;> cases hm
    rfl
  have hfilled := filled?_afterPush s.shared.queue s.shared.links a phase
  have hoffered := offered?_afterPush s.shared.queue s.shared.links a phase
  rw [← hphase] at hfilled hoffered
  have hstub := Queue.PushPhase.stub_step s.shared.queue s.shared.links phase
  dsimp only
  generalize phase.step s.shared.queue s.shared.links = next at *
  refine h.producer (t := (s.setQueue next.2.1 next.2.2).setProducer i
    { p with phase := .afterPush a next.1 }) hi rfl rfl hstub rfl hcontent ?_ ?_ ?_ ?_
  · cases hex : exchanged? phase with
    | none => rfl
    | some m => simp [h.filled i p m a hi (hexchanged hex)]
  · intro m b hm
    dsimp only at hm
    rw [hfilled] at hm
    split at hm
    · exact hm
    · cases hm
  · intro m b hm
    dsimp only
    rw [hfilled]
    cases hex : exchanged? phase with
    | none => exact Or.inl hm
    | some m' =>
        rw [hexchanged hex] at hm
        cases hm
        exact Or.inr (by simp)
  · rw [Producer.remaining, Producer.remaining, hoffered, List.append_assoc]

/-! ## Steps of the consumer -/

/-- The records with events stay where they are. -/
theorem Events.congr (h : Events s c capacity chain order lapsed pending todo)
    (hproducers : t.producers = s.producers) (hslots : t.shared.slots = s.shared.slots)
    (hdelivered : t.delivered = s.delivered)
    (hunhandled : t.unhandled c' chain' = s.unhandled c chain) :
    Events t c' capacity chain' order lapsed pending todo where
  size_eq := by rw [hslots, h.size_eq]
  occupied := by
    rw [hslots, hunhandled, hproducers]
    exact h.occupied
  pending_eq := by rw [hunhandled, hslots, h.pending_eq]
  filled := by
    rw [hproducers, hslots]
    exact h.filled
  order_eq := by rw [hdelivered, h.order_eq]
  calls := by
    have hremaining : t.remaining = s.remaining := by
      funext i
      rw [State.remaining, State.remaining, hproducers]
    rw [hremaining]
    exact h.calls

theorem handle?_afterPop (next : Queue.PopPhase) :
    (ConsumerPhase.afterPop next).handle? = next.popped? := by
  rcases afterPop_cases next with ⟨index, rfl⟩ | rfl | ⟨hpop, -, hpopped⟩
  · rfl
  · rfl
  · rw [hpop, hpopped]
    rfl

/-- A pop hands the first event that waits to the consumer. -/
theorem events_pop {phase : Queue.PopPhase}
    (h : Events s (.pop phase) capacity chain order lapsed pending todo) :
    let next := phase.step s.shared.queue s.shared.links
    content s.shared.queue.stub chain =
        next.1.popped?.toList ++ content s.shared.queue.stub chain' →
      Events (s.setQueue next.2.1 next.2.2) (.afterPop next.1) capacity chain' order lapsed pending
        todo := by
  intro next hcontent
  refine h.congr rfl rfl rfl ?_
  have hstub : next.2.1.stub = s.shared.queue.stub := Queue.PopPhase.stub_step _ _ phase
  rw [State.unhandled, State.unhandled, hcontent, handle?_afterPop]
  simp [State.setQueue, hstub, ConsumerPhase.handle?]

/-- The consumer handles the first event that waits, and empties its record. -/
theorem Events.take (h : Events s (.handle n) capacity chain order lapsed pending todo)
    (hr : Records s (.handle n) first capacity free chain) :
    ∃ a rest, pending = a :: rest ∧ s.shared.slots.payload? n = some a ∧
      ∀ {t c' lapsed'}, t.producers = s.producers → t.shared.slots = s.shared.slots.clear n →
        t.shared.queue.stub = s.shared.queue.stub → c'.handle? = none →
        t.delivered.reverse ++ lapsed' = s.delivered.reverse ++ lapsed ++ [a] →
        Events t c' capacity chain order lapsed' rest todo := by
  have hpending := h.pending_eq
  have hunhandled : s.unhandled (.handle n) chain = n :: content s.shared.queue.stub chain := rfl
  rw [hunhandled, List.map_cons] at hpending
  cases hp : pending with
  | nil =>
      rw [hp] at hpending
      cases hpending
  | cons a rest =>
      rw [hp, List.map_cons, List.cons.injEq] at hpending
      rcases hpending with ⟨hpayload, hrest⟩
      refine ⟨a, rest, rfl, hpayload, ?_⟩
      intro t c' lapsed' hproducers hslots hstub hhandle hdelivered
      have hholds : n ∈ (ConsumerPhase.view (.handle n)).records := by
        simp [ConsumerPhase.view, records_eq_holds]
      rcases hr.apart_consumer hholds with ⟨hcontent, hothers⟩
      have hnext : t.unhandled c' chain = content s.shared.queue.stub chain := by
        rw [State.unhandled, hhandle, hstub]
        rfl
      have hother : ∀ {m}, m ≠ n → t.shared.slots.payload? m = s.shared.slots.payload? m := by
        intro m hm
        rw [hslots, Slots.payload?_clear, if_neg hm]
      exact {
        size_eq := by rw [hslots, Slots.size_clear, h.size_eq]
        occupied := by
          intro m hm
          have hmn : m ≠ n := by
            rintro rfl
            rw [hslots, Slots.isOccupied, Slots.payload?_clear, if_pos rfl] at hm
            cases hm
          rw [Slots.isOccupied, hother hmn] at hm
          rw [hnext, hproducers]
          rcases h.occupied m hm with hmem | hfilled
          · rw [hunhandled] at hmem
            exact Or.inl ((List.mem_cons.1 hmem).resolve_left hmn)
          · exact Or.inr hfilled
        pending_eq := by
          rw [hnext, ← hrest]
          refine List.map_congr_left fun m hm => hother ?_
          rintro rfl
          exact hcontent hm
        filled := by
          intro j w m b hw hfilled
          rw [hproducers] at hw
          refine (hother ?_).trans (h.filled j w m b hw hfilled)
          rintro rfl
          exact hothers j w hw (mem_records_of_filled? hfilled)
        order_eq := by
          rw [hdelivered, h.order_eq, hp, List.append_assoc _ [a]]
          rfl
        calls := by
          have hremaining : t.remaining = s.remaining := by
            funext i
            rw [State.remaining, State.remaining, hproducers]
          rw [hremaining]
          exact h.calls }

end EngineThreads

end EventLog
