import UniBus.Core.Types
import Mathlib.Data.List.AList

/-!
# Jettys

Connectionless send and receive units with bounded queues for posted receive
buffers and completions.
-/
namespace UniBus

structure RecvBuffer where
  buf : List UInt8
  wrId : UInt64
  deriving DecidableEq, Repr

structure Jetty where
  handle : UInt32
  nodeId : UInt16
  /-- Posted receive buffers. -/
  jfr : List RecvBuffer
  /-- Completion queue. -/
  jfc : List Cqe
  jfrDepth : UInt32
  jfcDepth : UInt32
  deriving DecidableEq, Repr

namespace Jetty

variable (j : Jetty)

def postRecv (buf : List UInt8) (wrId : UInt64) : Except UbError Jetty :=
  if j.jfr.length ≥ j.jfrDepth.toNat then .error .noResources
  else .ok { j with jfr := j.jfr ++ [⟨buf, wrId⟩] }

def popRecv : Option (RecvBuffer × Jetty) :=
  match j.jfr with
  | [] => none
  | buf :: rest => some (buf, { j with jfr := rest })

def pushCqe (cqe : Cqe) : Except UbError Jetty :=
  if j.jfc.length ≥ j.jfcDepth.toNat then .error .noResources
  else .ok { j with jfc := j.jfc ++ [cqe] }

def pollCqe : Option (Cqe × Jetty) :=
  match j.jfc with
  | [] => none
  | cqe :: rest => some (cqe, { j with jfc := rest })

end Jetty

structure JettyTable where
  entries : AList (fun _ : UInt32 => Jetty)
  nextHandle : UInt32
  nodeId : UInt16
  jfrDepth : UInt32
  jfcDepth : UInt32

namespace JettyTable

def new (nodeId : UInt16) (jfrDepth jfcDepth : UInt32) : JettyTable :=
  ⟨∅, 1, nodeId, jfrDepth, jfcDepth⟩

variable (t : JettyTable)

def create : JettyTable × UInt32 :=
  let handle := t.nextHandle
  ({ t with
      entries := t.entries.insert handle ⟨handle, t.nodeId, [], [], t.jfrDepth, t.jfcDepth⟩
      nextHandle := handle + 1 },
    handle)

def lookup (handle : UInt32) : Option Jetty := t.entries.lookup handle

/-- Stores a Jetty changed through a reference to it. -/
def store (jetty : Jetty) (handle : UInt32) : JettyTable :=
  { t with entries := t.entries.insert handle jetty }

end JettyTable
end UniBus
