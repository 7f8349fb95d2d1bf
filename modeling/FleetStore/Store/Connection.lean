/-! # Connections

A connection tells where a store is and whether it is reached. Listeners hear
every change of the status, in the order in which they were added; setting the
status it has already is no change.
-/

namespace FleetStore

inductive ConnectionStatus where
  | connecting
  | connected
  | failedToConnect
  | disconnected
deriving DecidableEq, Repr

namespace ConnectionStatus

def all : List ConnectionStatus :=
  [.connecting, .connected, .failedToConnect, .disconnected]

def name : ConnectionStatus → String
  | .connecting => "connecting"
  | .connected => "connected"
  | .failedToConnect => "failed_to_connect"
  | .disconnected => "disconnected"

/-- A text with its ASCII letters in lower case. -/
def lower (text : String) : String :=
  String.ofList (text.toList.map Char.toLower)

/-- The status with a name, in any case. -/
def ofName? (text : String) : Option ConnectionStatus :=
  all.find? fun s => s.name = lower text

end ConnectionStatus

/-- A listener and the statuses it has heard, the earliest first. -/
structure Listener where
  tag : String
  heard : List ConnectionStatus
deriving DecidableEq, Repr

/-- A connection and its listeners, the first one added first. -/
structure Connection where
  url : String
  status : ConnectionStatus
  listeners : List Listener
deriving DecidableEq, Repr

namespace Connection

def new (url : String) (status : ConnectionStatus) : Connection :=
  ⟨url, status, []⟩

def isConnected (c : Connection) : Bool :=
  c.status = .connected

def addListener (c : Connection) (tag : String) : Connection :=
  { c with listeners := c.listeners ++ [⟨tag, []⟩] }

/-- Sets the status and tells the listeners if it has changed. -/
def setStatus (c : Connection) (status : ConnectionStatus) : Connection :=
  if c.status = status then c
  else
    { c with
      status
      listeners := c.listeners.map fun l => { l with heard := l.heard ++ [status] } }

/-- The calls of listeners that setting a status makes, in their order. -/
def callsOf (c : Connection) (status : ConnectionStatus) : List (String × ConnectionStatus) :=
  if c.status = status then [] else c.listeners.map fun l => (l.tag, status)

end Connection

end FleetStore
