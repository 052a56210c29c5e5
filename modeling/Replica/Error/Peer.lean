import Replica.Lifecycle.State
import Replica.Peer

/-!
# Errors of peer bookkeeping

What goes wrong with peers, connections and lifecycles. Each constructor of `PeerError` is a cause;
`message` is the only place that words it. A failure of the operating system has a kind, out of a
fixed list, and a message.
-/

namespace Replica

/-! ### Failures of input and output -/

/-- The kind of an input or output failure. -/
inductive IoKind where
  | notFound | permissionDenied | connectionRefused | connectionReset | hostUnreachable
  | networkUnreachable | connectionAborted | notConnected | addrInUse | addrNotAvailable
  | networkDown | brokenPipe | alreadyExists | wouldBlock | notADirectory | isADirectory
  | directoryNotEmpty | readOnlyFilesystem | staleNetworkFileHandle | invalidInput | invalidData
  | timedOut | writeZero | storageFull | notSeekable | quotaExceeded | fileTooLarge | resourceBusy
  | executableFileBusy | deadlock | crossesDevices | tooManyLinks | invalidFilename
  | argumentListTooLong | interrupted | unsupported | unexpectedEof | outOfMemory | other
  deriving DecidableEq, Inhabited, Repr

namespace IoKind

def names : List (IoKind × String) :=
  [(notFound, "NotFound"), (permissionDenied, "PermissionDenied"),
    (connectionRefused, "ConnectionRefused"), (connectionReset, "ConnectionReset"),
    (hostUnreachable, "HostUnreachable"), (networkUnreachable, "NetworkUnreachable"),
    (connectionAborted, "ConnectionAborted"), (notConnected, "NotConnected"),
    (addrInUse, "AddrInUse"), (addrNotAvailable, "AddrNotAvailable"), (networkDown, "NetworkDown"),
    (brokenPipe, "BrokenPipe"), (alreadyExists, "AlreadyExists"), (wouldBlock, "WouldBlock"),
    (notADirectory, "NotADirectory"), (isADirectory, "IsADirectory"),
    (directoryNotEmpty, "DirectoryNotEmpty"), (readOnlyFilesystem, "ReadOnlyFilesystem"),
    (staleNetworkFileHandle, "StaleNetworkFileHandle"), (invalidInput, "InvalidInput"),
    (invalidData, "InvalidData"), (timedOut, "TimedOut"), (writeZero, "WriteZero"),
    (storageFull, "StorageFull"), (notSeekable, "NotSeekable"), (quotaExceeded, "QuotaExceeded"),
    (fileTooLarge, "FileTooLarge"), (resourceBusy, "ResourceBusy"),
    (executableFileBusy, "ExecutableFileBusy"), (deadlock, "Deadlock"),
    (crossesDevices, "CrossesDevices"), (tooManyLinks, "TooManyLinks"),
    (invalidFilename, "InvalidFilename"), (argumentListTooLong, "ArgumentListTooLong"),
    (interrupted, "Interrupted"), (unsupported, "Unsupported"), (unexpectedEof, "UnexpectedEof"),
    (outOfMemory, "OutOfMemory"), (other, "Other")]

def ofName? (text : String) : Option IoKind := (names.find? (·.2 == text)).map (·.1)

/-- Whether a failure of this kind means that a connection is gone. -/
def losesConnection : IoKind → Bool
  | connectionRefused | connectionReset | connectionAborted | notConnected | brokenPipe
  | unexpectedEof | addrNotAvailable => true
  | _ => false

end IoKind

/-- An input or output failure. Its text is its message. -/
structure IoError where
  kind : IoKind
  message : String
  deriving DecidableEq, Inhabited

/-! ### Errors -/

/-- Outcomes can be compared when their values and their errors can. -/
instance (priority := high) decEqExcept {ε α : Type} [DecidableEq ε] [DecidableEq α] :
    DecidableEq (Except ε α)
  | .ok a, .ok b => decidable_of_iff (a = b) ⟨congrArg Except.ok, Except.ok.inj⟩
  | .error a, .error b => decidable_of_iff (a = b) ⟨congrArg Except.error, Except.error.inj⟩
  | .ok _, .error _ | .error _, .ok _ => isFalse nofun

/-- An error of peer bookkeeping or of a lifecycle. -/
inductive PeerError where
  /-- `owner` was asked for a peer that it does not know; `known` are the ids it knows. -/
  | notFound (owner : String) (id : PeerId) (known : List PeerId)
  | alreadyClosed (owner : String) (state : Lifecycle.State)
  /-- A connection could not be made, or broke. -/
  | connection (peer : PeerId) (cause : String)
  | io (error : IoError)
  /-- A move that the table of lifecycle states does not allow. -/
  | invalidTransition (owner : String) (source target : Lifecycle.State)
  | timeout (ms : UInt64)
  | interrupted (reason : String)
  deriving DecidableEq, Inhabited

namespace PeerError

def kind : PeerError → String
  | notFound .. => "NotFound"
  | alreadyClosed .. => "AlreadyClosed"
  | connection .. => "Connection"
  | io _ => "Io"
  | invalidTransition .. => "InvalidTransition"
  | timeout _ => "Timeout"
  | interrupted _ => "Interrupted"

def message : PeerError → String
  | notFound owner id known =>
    owner ++ ": peer " ++ id.name ++ " not found: peers=" ++ Text.listed (known.map PeerId.describe)
  | alreadyClosed owner state => owner ++ " is already " ++ state.name
  | connection peer cause => "Connection to " ++ peer.name ++ " failed: " ++ cause
  | io error => "IO error: " ++ error.message
  | invalidTransition owner source target =>
    owner ++ ": illegal transition " ++ source.name ++ " -> " ++ target.name
  | timeout ms => "Operation timed out after " ++ toString ms.toNat ++ "ms"
  | interrupted reason => "Interrupted: " ++ reason

/-- The text of the failure behind the error, if there is one. -/
def source? : PeerError → Option String
  | io error => some error.message
  | _ => none

/-- Whether the cached connection is of no more use and should be made anew. -/
def shouldReconnect : PeerError → Bool
  | connection .. | alreadyClosed .. => true
  | io error => error.kind.losesConnection
  | _ => false

/-- Whether the error is a requested stop and no fault. -/
def isInterrupted : PeerError → Bool
  | interrupted _ => true
  | _ => false

end PeerError

end Replica
