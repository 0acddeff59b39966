import HumanMachine.Data.Bytes
import HumanMachine.Program.Basic

/-!
# System calls of the HTTP client

The commands of `HttpRequest.h` to its surroundings: the static descriptor
`m_iSocketFd`, the socket calls and the resolver. Descriptors are the integers the
calls return, so that a failed call returns a negative one.
-/

namespace HumanMachine.Client

/-- The capacity of the receive buffer and of the request buffer. -/
def BUFSIZE : ℕ := 41000

def URLSIZE : ℕ := 1024

def INVALID_SOCKET : ℤ := -1

abbrev Address : Type := BitVec 32

/-- The values of `errno` which the client tells apart. -/
inductive Errno where
  | EINTR
  /-- `EWOULDBLOCK` is the same number. -/
  | EAGAIN
  | EINPROGRESS
  | other (number : ℕ)
  deriving DecidableEq

/-- What `select` returns and says of the only descriptor in both sets. -/
structure Selected where
  ret : ℤ
  writable : Bool
  readable : Bool

/-- What `getsockopt` returns and the pending error. -/
structure PendingError where
  ret : ℤ
  error : BitVec 32

/-- The outcome of `recv`: 0, a positive count with these bytes, or -1. -/
inductive Received where
  | closed
  | data (bytes : Bytes) (nonempty : bytes ≠ []) (fits : bytes.length ≤ BUFSIZE)
  | failed (errno : Errno)

/-! The answer "ok" of the examples can be received. -/

theorem ok_nonempty : ascii "ok" ≠ [] := by decide

theorem ok_fits : (ascii "ok").length ≤ BUFSIZE := by decide

def okReceived : Received :=
  .data (ascii "ok") ok_nonempty ok_fits

inductive SysCommand where
  | loadSocketFd
  | storeSocketFd (fd : ℤ)
  | socket
  /-- The resolver of `gethostbyname`, with addresses in the form of `inet_ntoa`. -/
  | gethostbyname (name : Bytes)
  | inet_pton (text : Bytes)
  | fcntlGetFl (fd : ℤ)
  | fcntlSetFl (fd : ℤ) (flags : BitVec 32)
  | connect (fd : ℤ) (address : Address) (port : ℕ)
  | select (fd : ℤ)
  | getsockopt (fd : ℤ)
  | send (fd : ℤ) (data : Bytes)
  /-- `free(strHttpHead)` -/
  | freeHttpHead
  | recv (fd : ℤ)
  | close (fd : ℤ)

def sys : Interface where
  Command := SysCommand
  Answer
    | .loadSocketFd => ℤ
    | .storeSocketFd _ => Unit
    | .socket => ℤ
    | .gethostbyname _ => Option (List Bytes)
    | .inet_pton _ => Option Address
    | .fcntlGetFl _ => BitVec 32
    | .fcntlSetFl _ _ => ℤ
    | .connect _ _ _ => Option Errno
    | .select _ => Selected
    | .getsockopt _ => PendingError
    | .send _ _ => ℤ
    | .freeHttpHead => Unit
    | .recv _ => Received
    | .close _ => Unit

abbrev Http : Type → Type := Program sys

abbrev call (command : SysCommand) : Http (sys.Answer command) :=
  @Program.request sys command

/-- Answers with which everything succeeds at once. -/
def prompt (kept : ℤ) (pton : Bytes → Option Address) (received : Received) :
    ℕ → (command : SysCommand) → sys.Answer command
  | _, .loadSocketFd => kept
  | _, .storeSocketFd _ => ()
  | _, .socket => (3 : ℤ)
  | _, .gethostbyname name => (some [name] : Option (List Bytes))
  | _, .inet_pton text => pton text
  | _, .fcntlGetFl _ => (2 : BitVec 32)
  | _, .fcntlSetFl _ _ => (0 : ℤ)
  | _, .connect _ _ _ => (none : Option Errno)
  | _, .select _ => (⟨1, true, false⟩ : Selected)
  | _, .getsockopt _ => (⟨0, 0⟩ : PendingError)
  | _, .send _ data => (data.length : ℤ)
  | _, .freeHttpHead => ()
  | _, .recv _ => received
  | _, .close _ => ()

end HumanMachine.Client
