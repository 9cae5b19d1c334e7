import Aesd.Driver.FileOps
import Aesd.Lib.CText
import Aesd.Lib.Reactive

/-!
# A connection of the server

`utility_funcs.c`: the functions of a connection thread as processes over the
calls that they make.  The server is built with `USE_AESD_CHAR_DEVICE`.  `syslog`
and `free` leave `errno` alone.  `allocated_space` and `total_read` are not
reduced modulo `2 ^ 64`, since no buffer gets that long; their difference is.
-/

namespace Aesd

open CText Loop Reactive

/-! ## System and library calls -/

/-- The calls that a thread makes. Those that name no descriptor are about the
socket, the mutex of all threads and the file of the thread. -/
inductive Call where
  | realloc (ptr : Int) (size : Nat)
  | free (ptr : Int)
  | readSocket (size : Nat)
  | writeSocket (data : List UInt8)
  | pthreadMutexLock
  | pthreadMutexUnlock
  | openFile
  | ioctl (filed : Int) (seekto : AesdSeekto)
  | writeFile (filed : Int) (data : List UInt8)
  | readFile (filed : Int) (size : Nat)
  | close (filed : Int)
  deriving DecidableEq, Repr

/-- The value that a call returns, the bytes that it stores and `errno` after it. -/
structure Reply where
  value : Int
  bytes : List UInt8 := []
  errno : Int := 0
  deriving DecidableEq, Repr

/-! ## `read_str_from_socket` -/

def chunkSize : Nat := 512

/-- The block behind `buf_ptr`, 0 being `NULL`, and the bytes read into it. -/
structure SocketBuffer where
  bufPtr : Int := 0
  data : List UInt8 := []
  deriving DecidableEq, Repr

inductive ReadStr where
  | resize (buffer : SocketBuffer) (allocatedSpace : Nat)
  | read (buffer : SocketBuffer) (allocatedSpace : Nat)
  | release (buffer : SocketBuffer) (retVal : Int)
  deriving DecidableEq, Repr

namespace ReadStr

def freeSpace (buffer : SocketBuffer) (allocatedSpace : Nat) : Nat :=
  sizeSub allocatedSpace buffer.data.length

/-- The head of the loop: resize the allocation if needed. -/
def round (buffer : SocketBuffer) (allocatedSpace : Nat) : ReadStr :=
  if freeSpace buffer allocatedSpace < chunkSize >>> 2 then .resize buffer allocatedSpace
  else .read buffer allocatedSpace

def start : ReadStr := round {} 0

/-- The buffer is freed and its pointer cleared before an error is returned. -/
def fail (buffer : SocketBuffer) (retVal : Int) : Flow ReadStr (Int × SocketBuffer) :=
  if buffer.bufPtr ≠ 0 then .next (.release buffer retVal) else .leave (retVal, {})

end ReadStr

/-- `read_str_from_socket`: the return value and the buffer. -/
def readStrFromSocket : Process ReadStr Call Reply (Int × SocketBuffer) where
  call
    | .resize buffer allocatedSpace => .realloc buffer.bufPtr (allocatedSpace + chunkSize)
    | .read buffer allocatedSpace => .readSocket (ReadStr.freeSpace buffer allocatedSpace)
    | .release buffer _ => .free buffer.bufPtr
  resume
    | .resize buffer allocatedSpace, reply =>
        if reply.value = 0 then ReadStr.fail buffer reply.errno
        else .next (.read { buffer with bufPtr := reply.value } (allocatedSpace + chunkSize))
    | .read buffer allocatedSpace, reply =>
        if reply.value < 0 then ReadStr.fail buffer reply.errno
        else if reply.value = 0 then ReadStr.fail buffer (-1)
        else
          let buffer := { buffer with data := buffer.data ++ reply.bytes }
          if buffer.data.getLast? = some newline then .leave (0, buffer)
          else .next (ReadStr.round buffer allocatedSpace)
    | .release _ retVal, _ => .leave (retVal, {})

/-! ## `dump_buffer_to_file` -/

/-- `dump_buffer_to_file`. The state is what is left to write. -/
def dumpBufferToFile (filed : Int) : Process (List UInt8) Call Reply Int where
  call left := .writeFile filed left
  resume left reply :=
    -- the result of `write` is stored in a `size_t`
    let bytesWrote := toSizeT reply.value
    if bytesWrote < left.length then
      if bytesWrote ≤ 0 then .leave reply.errno else .next (left.drop bytesWrote)
    else .leave 0

/-! ## `dump_file_to_socket` -/

def tmpBufSize : Nat := 1024

inductive DumpFile where
  | read (buf : List UInt8)
  | write (buf : List UInt8) (writePtr currentChunkSize : Nat)
  deriving DecidableEq, Repr

def DumpFile.start : DumpFile := .read (List.replicate tmpBufSize 0)

/-- `dump_file_to_socket`. A chunk that is read replaces the beginning of `buf`. -/
def dumpFileToSocket (filed : Int) : Process DumpFile Call Reply Int where
  call
    | .read _ => .readFile filed tmpBufSize
    | .write buf writePtr currentChunkSize =>
        .writeSocket ((buf.drop writePtr).take currentChunkSize)
  resume
    | .read buf, reply =>
        if 0 < reply.value then
          .next (.write (reply.bytes ++ buf.drop reply.bytes.length) 0 reply.value.toNat)
        else if reply.value < 0 then .leave reply.errno
        else .leave 0
    | .write buf writePtr currentChunkSize, reply =>
        if reply.value < 0 then .leave reply.errno
        else
          let writePtr := sizeAdd writePtr reply.value.toNat
          let currentChunkSize := sizeSub currentChunkSize reply.value.toNat
          if 0 < currentChunkSize then .next (.write buf writePtr currentChunkSize)
          else .next (.read buf)

/-! ## The seek command -/

def seekKey : List UInt8 := ascii "AESDCHAR_IOCSEEKTO:"

def toInt (value : Int) : Int := value.bmod (2 ^ 32)

/-- The numbers of a packet in which the key was found and that a zero byte has been
stored behind. They are looked for behind its first bytes, wherever the key is. -/
def parseSeekto (data : List UInt8) : Option AesdSeekto :=
  let (writeCmd, secondToken) := strtol ((cString data).drop seekKey.length)
  match secondToken with
  | 44 :: secondToken =>
      some
        { writeCmd := .ofInt (toInt writeCmd)
          writeCmdOffset := .ofInt (toInt (strtol secondToken).1) }
  | _ => none

/-! ## `thread_run_function` -/

inductive Thread where
  | readStr (state : ReadStr)
  | lock (buffer : SocketBuffer)
  | openFile (buffer : SocketBuffer)
  | ioctl (buffer : SocketBuffer) (filed : Int) (seekto : AesdSeekto)
  | dumpBuffer (buffer : SocketBuffer) (filed : Int) (left : List UInt8)
  | dumpFile (buffer : SocketBuffer) (filed : Int) (state : DumpFile)
  | close (buffer : SocketBuffer) (filed : Int)
  | unlock (buffer : SocketBuffer)
  | free (buffer : SocketBuffer)
  -- the failure exits
  | freeUnlockBreak (buffer : SocketBuffer)
  | unlockBreak
  | freeBreak (buffer : SocketBuffer)
  deriving DecidableEq, Repr

inductive ThreadEnd where
  | exitFailure
  | segfault
  deriving DecidableEq, Repr

namespace Thread

def start : Thread := .readStr ReadStr.start

/-- `free` is called in the state `freeing`, if there is a buffer. -/
def freeBuffer (buffer : SocketBuffer) (freeing : Thread) (otherwise : Flow Thread ThreadEnd) :
    Flow Thread ThreadEnd :=
  if buffer.bufPtr ≠ 0 then .next freeing else otherwise

/-- What is done with a packet once the file is open. `strstr` is called before a zero byte is
stored behind the packet; it is taken to find one there. -/
def dispatch (buffer : SocketBuffer) (filed : Int) : Flow Thread ThreadEnd :=
  -- `strstr` does not check its argument
  if buffer.bufPtr = 0 then .leave .segfault
  else if strstr seekKey (cString buffer.data) ≠ none then
    match parseSeekto buffer.data with
    | some seekto => .next (.ioctl buffer filed seekto)
    | none => .next (.dumpFile buffer filed DumpFile.start)
  else .next (.dumpBuffer buffer filed buffer.data)

end Thread

open Thread in
def threadRunFunction : Process Thread Call Reply ThreadEnd where
  call
    | .readStr state => readStrFromSocket.call state
    | .lock _ => .pthreadMutexLock
    | .openFile _ => .openFile
    | .ioctl _ filed seekto => .ioctl filed seekto
    | .dumpBuffer _ filed left => (dumpBufferToFile filed).call left
    | .dumpFile _ filed state => (dumpFileToSocket filed).call state
    | .close _ filed => .close filed
    | .unlock _ | .unlockBreak => .pthreadMutexUnlock
    | .free buffer | .freeUnlockBreak buffer | .freeBreak buffer => .free buffer.bufPtr
  resume
    | .readStr state, reply =>
        match readStrFromSocket.resume state reply with
        | .next state => .next (.readStr state)
        | .leave (retVal, buffer) =>
            if retVal ≠ 0 then freeBuffer buffer (.freeBreak buffer) (.leave .exitFailure)
            else .next (.lock buffer)
    | .lock buffer, reply =>
        if reply.value ≠ 0 then freeBuffer buffer (.freeBreak buffer) (.leave .exitFailure)
        else .next (.openFile buffer)
    | .openFile buffer, reply =>
        if reply.value < 0 then freeBuffer buffer (.freeUnlockBreak buffer) (.next .unlockBreak)
        else dispatch buffer reply.value
    | .ioctl buffer filed _, reply =>
        if reply.value ≠ 0 then freeBuffer buffer (.freeUnlockBreak buffer) (.next .unlockBreak)
        else .next (.dumpFile buffer filed DumpFile.start)
    | .dumpBuffer buffer filed left, reply =>
        match (dumpBufferToFile filed).resume left reply with
        | .next left => .next (.dumpBuffer buffer filed left)
        | .leave retVal =>
            if retVal ≠ 0 then
              freeBuffer buffer (.freeUnlockBreak buffer) (.next .unlockBreak)
            else .next (.dumpFile buffer filed DumpFile.start)
    | .dumpFile buffer filed state, reply =>
        match (dumpFileToSocket filed).resume state reply with
        | .next state => .next (.dumpFile buffer filed state)
        | .leave retVal =>
            -- the buffer is not freed here
            if retVal ≠ 0 then .next .unlockBreak else .next (.close buffer filed)
    | .close buffer _, reply =>
        if reply.value < 0 then freeBuffer buffer (.freeUnlockBreak buffer) (.next .unlockBreak)
        else .next (.unlock buffer)
    | .unlock buffer, reply =>
        if reply.value ≠ 0 then freeBuffer buffer (.freeBreak buffer) (.leave .exitFailure)
        else freeBuffer buffer (.free buffer) (.next start)
    | .free _, _ => .next start
    | .freeUnlockBreak _, _ => .next .unlockBreak
    | .unlockBreak, _ | .freeBreak _, _ => .leave .exitFailure

end Aesd
