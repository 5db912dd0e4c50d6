import UniBus.Control.Plane
import UniBus.Foundations.Watch

/-!
# Peer changes on their way to the data plane

The tasks of the control plane, one for every connection and one for the
heartbeat loop, send their events one by one into a channel that keeps only the
latest; a task of the data plane waits for a change, borrows the event and
handles it. Sends of all tasks and the steps of the receiver interleave freely.
-/
namespace UniBus.Control

open Watch (Channel Event Delivered sentOf handledOf)

/-- The control plane, the events each of its tasks has yet to send, and the
channel to the data plane. -/
structure PeerChanges where
  plane : Plane
  sending : ℕ → List PeerChangeEvent
  channel : Channel PeerChangeEvent

namespace PeerChanges

def start (plane : Plane) : PeerChanges := ⟨plane, fun _ => [], .new (.joined 0 0)⟩

inductive Input
  | processControlMessage (task : ℕ) (peerTx : PeerTx) (now : ℕ) (msg : ControlMsg)
  | heartbeatTick (task now : ℕ)
  | send (task : ℕ)
  | changed
  | borrow
  | finish

variable (s : PeerChanges)

/-- The next send of a task. -/
def send (task : ℕ) : PeerChanges × List (Event PeerChangeEvent) :=
  match s.sending task with
  | [] => (s, [])
  | event :: rest =>
    let (channel, events) := s.channel.step (.send event)
    ({ s with sending := Function.update s.sending task rest, channel }, events)

/-- A task turns to its next message or tick when it has sent everything. -/
def step : Input → PeerChanges × List (Event PeerChangeEvent)
  | .processControlMessage task peerTx now msg =>
    if s.sending task = [] then
      let (plane, sends) := s.plane.processControlMessage peerTx now msg
      ({ s with plane, sending := Function.update s.sending task sends.events }, [])
    else (s, [])
  | .heartbeatTick task now =>
    if s.sending task = [] then
      let (plane, _, events) := s.plane.heartbeatTick now
      ({ s with plane, sending := Function.update s.sending task events }, [])
    else (s, [])
  | .send task => s.send task
  | .changed =>
    let (channel, events) := s.channel.step .changed
    ({ s with channel }, events)
  | .borrow =>
    let (channel, events) := s.channel.step .borrow
    ({ s with channel }, events)
  | .finish =>
    let (channel, events) := s.channel.step .finish
    ({ s with channel }, events)

/-- Every send finds the event before it borrowed. -/
def Borrowed (s : PeerChanges) (_ : List (Event PeerChangeEvent)) : Input → Prop
  | .send task => s.sending task ≠ [] → s.channel.Idle
  | _ => True

theorem delivered_step {log : List (Event PeerChangeEvent)} (h : Delivered s.channel log)
    {input : Input} (hborrowed : s.Borrowed log input) :
    Delivered (s.step input).1.channel (log ++ (s.step input).2) := by
  cases input with
  | processControlMessage task peerTx now msg =>
    rw [step]
    split_ifs
    · rwa [List.append_nil]
    · rwa [List.append_nil]
  | heartbeatTick task now =>
    rw [step]
    split_ifs
    · rwa [List.append_nil]
    · rwa [List.append_nil]
  | send task =>
    rw [step, PeerChanges.send]
    cases hsending : s.sending task with
    | nil => rwa [List.append_nil]
    | cons event rest => exact h.send (hborrowed (by simp [hsending])) event
  | changed => exact h.changed
  | borrow => exact h.borrow
  | finish => exact h.finish

/-- If every send finds the event before it borrowed, the data plane handles the
events in the order of the sends, and all of them once it has caught up. -/
theorem peer_changes_handled (plane : Plane) {inputs : List Input}
    (hinputs : Runs.Meets step Borrowed (start plane) [] inputs) :
    let run := Runs.run step (start plane) inputs
    sentOf run.2 = handledOf run.2 ++ run.1.channel.pending ∧
      (run.1.channel.Idle → handledOf run.2 = sentOf run.2) := by
  intro run
  have hrun : Delivered run.1.channel run.2 := by
    simpa using Runs.run_invariant (I := fun s log => Delivered (channel s) log)
      (fun s _ _ h hborrowed => s.delivered_step h hborrowed)
      (Watch.delivered_new (PeerChangeEvent.joined 0 0)) hinputs
  exact ⟨hrun.eq, hrun.handled_eq_sent⟩

/-- A snapshot with two other nodes, received by node 1. -/
def snapshotInputs : List Input :=
  [.processControlMessage 0 0 0 (.memberSnapshot
    ⟨[⟨1, 1, "a:1", "a:2", 5⟩, ⟨2, 1, "b:1", "b:2", 6⟩, ⟨3, 1, "c:1", "c:2", 7⟩]⟩)]

def node1 : Plane := .new ⟨1, "a:1", 64, 1000, 3⟩ 5 none fun _ => ⟨.memory, 0, []⟩

theorem peer_changes_handled_snapshot :
    let run := Runs.run step (start node1)
      (snapshotInputs ++ [.send 0, .changed, .borrow, .send 0, .finish, .changed, .borrow, .finish])
    handledOf run.2 = sentOf run.2 := by
  have hborrowed : Runs.Meets step Borrowed (start node1) []
      (snapshotInputs ++
        [.send 0, .changed, .borrow, .send 0, .finish, .changed, .borrow, .finish]) := by
    refine ⟨trivial, ?_, trivial, trivial, ?_, trivial, trivial, trivial, trivial, trivial⟩
    · intro _
      decide
    · intro _
      decide
  exact (peer_changes_handled node1 hborrowed).2 (by decide)

/-- Both events are sent before the data plane looks: the first is overwritten,
and node 2 is never handled. -/
theorem snapshot_event_overwritten :
    let run := Runs.run step (start node1)
      (snapshotInputs ++ [.send 0, .send 0, .changed, .borrow, .finish])
    run.1.channel.Idle ∧ sentOf run.2 = [.joined 2 6, .joined 3 7] ∧
      handledOf run.2 = [.joined 3 7] := by
  decide

end PeerChanges
end UniBus.Control
