import Btcontrol.Quiet
import Btcontrol.Srcp
import Btcontrol.Transition

/-! The server: any number of client threads over one loco table and one backend. Their
whole commands interleave in any order. A thread that throws has left `run`; its destructor
runs later. -/
namespace Btcontrol

open Exec ClientThread

inductive Phase where
  | accepted
  | running (lastStatus : List LastStatus) (changedAddrIndex : List Bool)
  | left
  deriving DecidableEq

structure Client where
  clientID : Int
  phase : Phase

structure Server (β : Type) where
  globals : Globals β
  clients : List Client := []
  clientID_counter : Int := 1
  numClients : Int := 0
  halted : Bool := false

/-- What can happen next. Each label of a thread carries what it meets outside. -/
inductive Label where
  | accept
  | helo (clientID : Int) (w : World)
  | message (clientID : Int) (w : World) (cmd : FBTCtlMessage)
  | readFails (clientID : Int)
  | destroy (clientID : Int)

namespace Server

variable {β : Type}

abbrev lokdef (s : Server β) : List Lokdef := s.globals.lokdef

def phaseOf (s : Server β) (clientID : Int) : Option Phase :=
  (s.clients.find? (fun client => client.clientID == clientID)).map Client.phase

def setPhase (s : Server β) (clientID : Int) (phase : Phase) : Server β := { s with
  clients := s.clients.map (fun client => if client.clientID = clientID then { client with phase } else client) }

def context (s : Server β) (lastStatus : List LastStatus) (changedAddrIndex : List Bool) : Ctx β :=
  { globals := s.globals, lastStatus, changedAddrIndex }

def leave (s : Server β) (clientID : Int) (globals : Globals β) (e : Err) : Server β :=
  { s.setPhase clientID .left with globals, halted := e = .abort }

variable (hardware : Hardware β)

/-- `~ClientThread`: the last one stops all locos, any other its own. -/
def destructor (clientID : Int) (last : Bool) : EStateM Err (Globals β) Unit := do
  hardware.fullstop clientID last true
  onDevice (hardware.clientDisconnected last)

def step (s : Server β) (label : Label) : Server β :=
  if s.halted then s
  else match label with
  | .accept => { s with
      clients := s.clients ++ [⟨s.clientID_counter, .accepted⟩]
      clientID_counter := s.clientID_counter + 1
      numClients := s.numClients + 1 }
  | .helo clientID w => match s.phaseOf clientID with
    | some .accepted => match sendHelo hardware w (s.context [] []) with
      | .ok _ c => { s.setPhase clientID (.running (initialStatus s.lokdef) (noneChanged s.lokdef)) with
          globals := c.globals }
      | .error e c => s.leave clientID c.globals e
    | _ => s
  | .message clientID w cmd => match s.phaseOf clientID with
    | some (.running lastStatus changedAddrIndex) =>
      match processMessage hardware clientID w cmd (s.context lastStatus changedAddrIndex) with
      | .ok _ c => { s.setPhase clientID (.running c.lastStatus c.changedAddrIndex) with
          globals := c.globals }
      | .error e c => s.leave clientID c.globals e
    | _ => s
  | .readFails clientID => match s.phaseOf clientID with
    | some (.running _ _) => s.setPhase clientID .left
    | _ => s
  | .destroy clientID => match s.phaseOf clientID with
    | some .left =>
      let stopped := destructor hardware clientID (s.numClients - 1 = 0) s.globals
      { s with
        clients := s.clients.filter (fun client => client.clientID ≠ clientID)
        numClients := s.numClients - 1
        globals := final stopped
        halted := match stopped with | .ok _ _ => false | .error _ _ => true }
    | _ => s

theorem step_halted (s : Server β) (label : Label) (halted : s.halted = true) : step hardware s label = s := by
  cases label <;> simp only [step,halted,↓reduceIte]

/-- The server before the first client. -/
def start (lokdef : List Lokdef) (device : β) : Server β := { globals := ⟨lokdef, device⟩ }

def run (s : Server β) (labels : List Label) : Server β := Transition.run (step hardware) s labels

end Server

/-! Runs to look at: one client on a standing connection, and commands as it sends them. -/

def online : World := { connected := true, readFile := fun filename => .error (.fileError filename) }

def joined : List Label := [.accept, .helo 1 online]

def oneClient : Server SRCP := Server.run (SRCP_Hardware okSrcpd) (Server.start twoLocos {}) joined

def oneLoco (type : Nat) (addr : Int) : FBTCtlMessage := .struct type [(str "addr", .int addr)]

def manyLocos (type : Nat) (addrs : List Int) : FBTCtlMessage :=
  .struct type [(str "list", .array (addrs.map (oneLoco DataType.STRUCT)))]

end Btcontrol
