import EventLog.Interleaving.Calls
import EventLog.Proofs.Transport.QueueChain

/-!
# Pops that nobody comes between

The atomic steps of a pop, taken with no step of another call between them, do what the
call does.  The consumer then waits at most once, after it put the stub behind the last
node, and the link that it waits for is there when it reads it first.

Main results:

- `Queue.endsAlone_of_holds`: a pop that is left alone hands out the oldest node, without
  waiting in vain.
-/

namespace EventLog

namespace Queue

namespace PopPhase

/-- The consumer waits for a link. -/
def IsWaiting : PopPhase → Prop
  | awaitStub => True
  | awaitHead => True
  | _ => False

/-- From a phase on, and with nobody between its steps, a pop comes to its end, and no wait on
the way takes a second read. -/
inductive EndsAlone : PopPhase → Queue → Links → Option Address → Queue → Links → Prop
  | done (node : Option Address) (q : Queue) (l : Links) : EndsAlone (.done node) q l node q l
  | step {phase : PopPhase} {q q' : Queue} {l l' : Links} {node : Option Address}
      (hread : phase.IsWaiting → ¬ (phase.step q l).1.IsWaiting)
      (hrest : EndsAlone (phase.step q l).1 (phase.step q l).2.1 (phase.step q l).2.2 node q' l') :
      EndsAlone phase q l node q' l'

end PopPhase

open PopPhase

variable {q : Queue} {l : Links} {nodes rest : List Address} {next : Address}

/-- A wait for a link that is there hands out the head. -/
theorem endsAlone_awaitHead (hlink : l.get q.head = some next) :
    EndsAlone .awaitHead q l (some q.head) { q with head := next } l := by
  apply EndsAlone.step
  · simp [PopPhase.step, hlink, handOut, IsWaiting]
  · simp only [PopPhase.step, hlink, handOut]
    exact .done _ _ _

/-- The last node is handed out behind the stub, for whose publication there is one wait. -/
theorem endsAlone_readTail (htail : q.tail = q.head) (hsize : q.head < l.size) :
    EndsAlone .readTail q l (some q.head) { (q.push l q.stub).1 with head := q.stub }
      (q.push l q.stub).2 := by
  have hlink : (q.push l q.stub).2.get q.head = some q.stub := by
    rw [push, htail, Links.get_set, if_pos ⟨rfl, by simpa using hsize⟩]
  apply EndsAlone.step (by simp [IsWaiting])
  simp only [PopPhase.step, if_pos htail]
  apply EndsAlone.step (by simp [IsWaiting])
  simp only [PopPhase.step]
  apply EndsAlone.step (by simp [IsWaiting])
  simp only [PopPhase.step]
  apply EndsAlone.step (by simp [PopPhase.step, IsWaiting])
  exact endsAlone_awaitHead (q := (q.push l q.stub).1) hlink

/-- A phase that looks for the link of the oldest node comes to hand this node out. -/
theorem endsAlone_detachHead {phase : PopPhase}
    (hphase : phase.step q l = PopPhase.readHead.step q l) (hread : ¬ phase.IsWaiting)
    (hpath : Chained l q.tail q.head rest) (hsize : q.head < l.size) :
    EndsAlone phase q l (some q.head) (q.detachHead l).2.1 (q.detachHead l).2.2 := by
  apply EndsAlone.step (fun hwaits => absurd hwaits hread)
  rw [hphase]
  cases rest with
  | nil =>
      rcases hpath with ⟨htail, hget⟩
      have hlink : (q.push l q.stub).2.get q.head = some q.stub := by
        rw [push, ← htail, Links.get_set, if_pos ⟨rfl, by simpa using hsize⟩]
      simp only [PopPhase.step, detachHead, hget, ← htail, hlink, ne_eq, not_true, if_false]
      exact endsAlone_readTail htail.symm hsize
  | cons next rest =>
      simp only [PopPhase.step, detachHead, hpath.1, handOut]
      exact .done _ _ _

/-- A pop that is left alone hands out the oldest node, without waiting in vain. -/
theorem endsAlone_of_holds (h : q.Holds l nodes) :
    EndsAlone .start q l nodes.head? (q.pop l).2.1 (q.pop l).2.2 := by
  rcases h.chained with ⟨hhead, hpath⟩ | ⟨rest, rfl, hpath⟩
  · cases nodes with
    | nil =>
        rcases hpath with ⟨htail, hget⟩
        rw [pop_of_holds_nil h]
        apply EndsAlone.step (by simp [IsWaiting])
        simp only [PopPhase.step, hhead, hget, if_true]
        apply EndsAlone.step (by simp [IsWaiting])
        simp only [PopPhase.step, ← htail, if_true]
        exact .done _ _ _
    | cons n nodes =>
        have hsize : n < l.size := h.bounded n (by simp)
        have hpop : q.pop l = ({ q with head := n } : Queue).detachHead l := by
          simp [pop, hhead, hpath.1]
        rw [hpop]
        apply EndsAlone.step (by simp [IsWaiting])
        simp only [PopPhase.step, hhead, hpath.1, if_true]
        exact endsAlone_detachHead (q := { q with head := n }) rfl (by simp [IsWaiting]) hpath.2
          hsize
  · have hsize : q.head < l.size := h.bounded q.head (by simp)
    have hne : q.head ≠ q.stub := by
      intro heq
      exact (List.nodup_cons.1 h.nodup).1 (heq ▸ List.mem_cons_self)
    have hphase : PopPhase.start.step q l = PopPhase.readHead.step q l := by
      simp [PopPhase.step, hne]
    rw [pop, if_neg hne]
    exact endsAlone_detachHead hphase (by simp [IsWaiting]) hpath hsize

end Queue

end EventLog
