import Rut9xx.Data.Memory
import Rut9xx.Data.Search
import Mathlib.Data.UInt
import Mathlib.Logic.Function.Basic

namespace Rut9xx.Httpd

open Data

/-- `STATE_NONE` and the other states of a connection. -/
inductive HttpState where
  | none
  | fileRequest
  | uploadRequest
  | serialRequest
  deriving DecidableEq

inductive UpgradeType where
  | firmware
  | uboot
  | art
  deriving DecidableEq

/-- The html files by name, and the others that `fs_open` finds. -/
inductive Page where
  | index
  | notFound
  | flashing
  | fail
  | failChecksum
  | failName
  | other (name : List UInt8)
  deriving DecidableEq

/-- The payload of a segment that fits `UIP_BUFSIZE`. -/
def uipTcpMss : Nat := 1500 - 14 - 40

/-- The configuration of a board, and the functions of other files. -/
structure Board where
  loadAddr : Nat
  maxUbootSize : Nat
  flashSize : Nat
  limitedArea : Nat
  artSize : Nat
  disableUboot : Bool
  disableArt : Bool
  /-- No ART address is configured and the flash is `FLASH_CUSTOM`. -/
  artRefused : Bool
  deviceModel : List UInt8
  crc32 : List UInt8 → Nat
  /-- `fwtool_validate_manifest` returns 0. -/
  validateManifest : List UInt8 → Bool
  fsOpen : List UInt8 → Option Page
  pageLength : Page → Nat
  /-- The memory behind `serial_request_magic`. -/
  afterMagic : List UInt8
  loadAddr_fits : loadAddr + flashSize ≤ 2 ^ 32
  flashSize_lt : flashSize < 2 ^ 31
  room : limitedArea + 10240 ≤ flashSize

/-- One call of `httpd_appcall`: the connection, the flags of uIP, the segment, the bytes of
the buffer behind it, and what the heap does. -/
structure Event where
  conn : Nat
  closed : Bool
  aborted : Bool
  timedout : Bool
  poll : Bool
  connected : Bool
  newdata : Bool
  acked : Bool
  rexmit : Bool
  data : List UInt8
  stale : List UInt8
  mss : Nat
  /-- `uip_conn->len` -/
  len : Nat
  /-- `malloc` finds room. -/
  memory : Bool
  /-- The string in a freed block that is read again. -/
  freed : List UInt8
  data_le : data.length ≤ uipTcpMss

structure HttpdState where
  state : HttpState
  count : Nat
  dataptr : Option (Page × Nat)
  upload : Nat
  uploadTotal : Nat

/-- `boundary_value`, which `httpd_state_reset` frees and keeps. -/
inductive Boundary where
  | null
  | live (value : List UInt8)
  | dangling

structure Server where
  readyForUpgrade : Bool
  upgradeType : UpgradeType
  netBootFileXferSize : Nat
  dataPointer : Nat
  postDone : Bool
  uploadFailed : Bool
  dataStartFound : Bool
  boundary : Boundary
  ram : Memory UInt8
  conns : Nat → HttpdState

inductive Output where
  | quiet
  | send (page : Page) (offset length : Nat)
  | sendSerial
  | close
  | abort
  deriving DecidableEq

def HttpdState.reset (hs : HttpdState) : HttpdState :=
  { hs with state := .none, count := 0, dataptr := .none, upload := 0, uploadTotal := 0 }

def Server.setConn (server : Server) (conn : Nat) (hs : HttpdState) : Server :=
  { server with conns := Function.update server.conns conn hs }

/-- `httpd_state_reset` -/
def Server.reset (server : Server) (conn : Nat) : Server :=
  { server with
    conns := Function.update server.conns conn (server.conns conn).reset
    dataStartFound := false
    boundary :=
      match server.boundary with
      | .null => .null
      | _ => .dangling }

/-- The bytes of a C string, up to its terminator. -/
def cString (bytes : List UInt8) : List UInt8 := bytes.takeWhile (· ≠ 0)

/-- `is_digit` and `atoi`, in 32 bits. -/
def isDigit (byte : UInt8) : Bool := 48 ≤ byte ∧ byte ≤ 57

def atoi (bytes : List UInt8) : Nat :=
  (bytes.takeWhile isDigit).foldl (fun value byte => (value * 10 + (byte.toNat - 48)) % 2 ^ 32) 0

/-- The bytes of a literal. -/
def text (string : String) : List UInt8 := string.toList.map fun char => UInt8.ofNat char.toNat

def eol : List UInt8 := [0x0d, 0x0a]

def eol2 : List UInt8 := [0x0d, 0x0a, 0x0d, 0x0a]

/-- A subtraction of unsigned ints. -/
def sub32 (value amount : Nat) : Nat := (value + (2 ^ 32 - amount % 2 ^ 32)) % 2 ^ 32

/-! ## The first chunk of the file -/

/-- The type that the name of the input stands for, and whether the board refuses it. A type
that is switched off is not taken over. -/
def inputChoice (board : Board) (part : List UInt8) : Option (Option UpgradeType × Bool) :=
  if (strstr (text "name=\"firmware\"") part).isSome then some (some .firmware, false)
  else if (strstr (text "name=\"uboot\"") part).isSome then
    if board.disableUboot then some (none, true) else some (some .uboot, false)
  else if (strstr (text "name=\"art\"") part).isSome then
    if board.disableArt then some (none, true) else some (some .art, board.artRefused)
  else none

def Server.chooseType (server : Server) (choice : Option UpgradeType × Bool) : Server :=
  { server with
    upgradeType := choice.1.getD server.upgradeType
    uploadFailed := server.uploadFailed || choice.2 }

/-- The size is too big, or not that of the ART partition. -/
def sizeRefused (board : Board) (type : UpgradeType) (uploadTotal : Nat) : Bool :=
  (type = .uboot ∧ uploadTotal > board.maxUbootSize + 11) ∨
    (type = .art ∧ uploadTotal ≠ board.artSize) ∨
      uploadTotal > board.flashSize - board.limitedArea

/-- The string that `boundary_value` points to. -/
def Server.boundaryString (server : Server) (event : Event) : Option (List UInt8) :=
  match server.boundary with
  | .null => none
  | .live value => some value
  | .dangling => some (cString event.freed)

/-- `memcpy` to `webfailsafe_data_pointer`. -/
def Server.storeData (server : Server) (data : List UInt8) : Server :=
  { server with
    ram := store server.ram server.dataPointer data
    dataPointer := server.dataPointer + data.length }

/-- `httpd_findandstore_firstchunk`, for a segment that ends in NUL. -/
def Server.findAndStoreFirstChunk (board : Board) (server : Server) (event : Event) :
    Bool × Server :=
  match server.boundaryString event with
  | none => (false, server)
  | some boundary =>
      match strstr boundary (cString event.data) with
      | none => (false, server)
      | some start =>
          let part := (cString event.data).drop start
          match inputChoice board part with
          | none => (false, server)
          | some choice =>
              let server := server.chooseType choice
              match strstr eol2 part with
              | none => (false, server)
              | some blank =>
                  let hs := server.conns event.conn
                  let uploadTotal := sub32 hs.uploadTotal (blank + 4 + boundary.length + 6)
                  let chunk := event.data.drop (start + blank + 4)
                  let server := server.setConn event.conn
                    { hs with uploadTotal := uploadTotal, upload := chunk.length }
                  let server := { server with
                    uploadFailed :=
                      server.uploadFailed || sizeRefused board server.upgradeType uploadTotal }
                  (true, server.storeData chunk)

/-! ## Requests -/

/-- `uip_send` of the page from its `dataptr` on. -/
def sendPage (event : Event) (hs : HttpdState) : Output :=
  match hs.dataptr with
  | none => .quiet
  | some (page, offset) => .send page offset (min hs.upload event.mss)

/-- The connection begins to serve a page. -/
def Server.servePage (board : Board) (server : Server) (event : Event) (page : Page) :
    Server × Output :=
  let hs := { server.conns event.conn with
    state := .fileRequest, dataptr := some (page, 0), upload := board.pageLength page }
  (server.setConn event.conn hs, sendPage event hs)

def Server.refuse (server : Server) (event : Event) : Server × Output :=
  (server.reset event.conn, .abort)

def isBlank (byte : UInt8) : Bool := byte = 0x20 ∨ byte = 0x09

/-- `uip_appdata[index]`, which may lie behind the segment. -/
def Event.at (event : Event) (index : Nat) : UInt8 := (event.data ++ event.stale).getD index 0

def Event.isGet (event : Event) : Bool :=
  event.at 0 = 0x47 ∧ event.at 1 = 0x45 ∧ event.at 2 = 0x54 ∧ isBlank (event.at 3)

def Event.isPost (event : Event) : Bool :=
  event.at 0 = 0x50 ∧ event.at 1 = 0x4f ∧ event.at 2 = 0x53 ∧ event.at 3 = 0x54 ∧
    isBlank (event.at 4)

def serialRequestMagic : List UInt8 := text "REQUEST SERIAL"

def Event.isSerial (board : Board) (event : Event) : Bool :=
  let len := max event.data.length serialRequestMagic.length
  (event.data ++ event.stale).take len = (serialRequestMagic ++ board.afterMagic).take len

/-- The length of the file name that begins at `uip_appdata[4]`. -/
def Event.nameLength (event : Event) : Option Nat :=
  (List.range 26).find? fun index =>
    isBlank (event.at (4 + index)) || event.at (4 + index) = 0x0d || event.at (4 + index) = 0x0a

def Server.handleGet (board : Board) (server : Server) (event : Event) : Server × Output :=
  match event.nameLength with
  | none => server.refuse event
  | some length =>
      let name := cString ((List.range length).map fun index => event.at (4 + index))
      if name = [0x2f] then server.servePage board event .index
      else server.servePage board event ((board.fsOpen name).getD .notFound)

/-- The buffer once `uip_appdata[uip_len]` is cleared. -/
def Event.terminated (event : Event) : List UInt8 := event.data ++ 0 :: event.stale.drop 1

/-- The number behind `Content-Length:` and the byte after it. -/
def contentLength (event : Event) : Option Nat :=
  match strstr (text "Content-Length:") (cString event.data) with
  | none => none
  | some place =>
      let rest := cString (event.terminated.drop (place + 16))
      if (strstr eol rest).isSome then some (atoi rest) else none

def boundaryParameter (event : Event) : Option (List UInt8) :=
  match strstr (text "boundary=") (cString event.data) with
  | none => none
  | some place =>
      let rest := (cString event.data).drop (place + 9)
      (strstr eol rest).map rest.take

/-- `memset(webfailsafe_data_pointer, 0xFF, CONFIG_MAX_UBOOT_SIZE)` at the load address. -/
def Server.clearRam (board : Board) (server : Server) : Server :=
  { server with
    dataPointer := board.loadAddr
    ram := store server.ram board.loadAddr (List.replicate board.maxUbootSize 0xff) }

def Server.handlePost (board : Board) (server : Server) (event : Event) : Server × Output :=
  match contentLength event with
  | none => server.refuse event
  | some uploadTotal =>
      if uploadTotal < 10240 then (server.reset event.conn).servePage board event .failName
      else
        match boundaryParameter event with
        | none => server.refuse event
        | some value =>
            if event.memory = false then
              ({ server with boundary := .null } : Server).refuse event
            else
              let server := server.setConn event.conn
                { server.conns event.conn with state := .uploadRequest, uploadTotal := uploadTotal }
              let server := ({ server with boundary := .live (text "--" ++ value) } : Server).clearRam
                board
              let (found, server) := server.findAndStoreFirstChunk board event
              ({ server with dataStartFound := found }, .quiet)

def Server.handleRequest (board : Board) (server : Server) (event : Event) : Server × Output :=
  if event.isGet then server.handleGet board event
  else if event.isPost then server.handlePost board event
  else if event.isSerial board then
    (server.setConn event.conn { server.conns event.conn with state := .serialRequest }, .sendSerial)
  else server.refuse event

/-! ## The end of an upload -/

/-- The bytes at `address`, in 32-bit address arithmetic. -/
def Server.ramAt (server : Server) (address count : Nat) : List UInt8 :=
  load server.ram (address % 2 ^ 32) count

/-- The page for an upload of `size` bytes at the load address. -/
def verdict (board : Board) (server : Server) (size : Nat) : Page :=
  if server.upgradeType = .uboot ∧
      board.crc32 (load server.ram board.loadAddr size) ≠
        atoi (cString (server.ramAt (board.loadAddr + size) 10)) then .failChecksum
  else if server.upgradeType = .uboot ∧
      ¬ board.deviceModel <+: cString (server.ramAt (board.loadAddr + size + 2 ^ 32 - 22) 12) then
    .failName
  else if server.upgradeType = .firmware ∧
      board.validateManifest (load server.ram board.loadAddr size) = false then .failName
  else .flashing

/-- The trailer that is not part of an upgrade of this type. -/
def trailer : UpgradeType → Nat
  | .uboot => 11
  | _ => 0

def Server.complete (board : Board) (server : Server) (event : Event) : Server × Output :=
  let size := sub32 (server.conns event.conn).uploadTotal (trailer server.upgradeType)
  let page : Page := if server.uploadFailed then .fail else verdict board server size
  let server := { server with
    postDone := true
    netBootFileXferSize := size
    uploadFailed := decide (page ≠ Page.flashing) }
  (server.reset event.conn).servePage board event page

/-- A segment of an upload under way. -/
def Server.handleUpload (board : Board) (server : Server) (event : Event) : Server × Output :=
  if server.dataStartFound = false then
    let (found, server) := server.findAndStoreFirstChunk board event
    if found then ({ server with dataStartFound := true }, .quiet) else server.refuse event
  else
    let hs := server.conns event.conn
    let hs := { hs with upload := (hs.upload + event.data.length) % 2 ^ 32 }
    let server := server.setConn event.conn hs
    let server := if server.uploadFailed then server else server.storeData event.data
    if hs.upload ≥ hs.uploadTotal then server.complete board event else (server, .quiet)

/-- The client has received what was sent. -/
def Server.handleAck (server : Server) (event : Event) : Server × Output :=
  let hs := server.conns event.conn
  if hs.state = .fileRequest then
    if hs.upload ≤ event.mss then
      let server := if server.postDone then
        { server with
          readyForUpgrade := server.readyForUpgrade || !server.uploadFailed
          postDone := false
          uploadFailed := false } else server
      (server.reset event.conn, .close)
    else
      let hs := { hs with
        dataptr := hs.dataptr.map fun (page, offset) => (page, offset + event.len)
        upload := sub32 hs.upload event.len }
      (server.setConn event.conn hs, sendPage event hs)
  else (server, .quiet)

/-- `httpd_appcall` on port 80. -/
def httpdAppcall (board : Board) (server : Server) (event : Event) : Server × Output :=
  let hs := server.conns event.conn
  if event.closed then (server.reset event.conn, .close)
  else if event.aborted || event.timedout then server.refuse event
  else if event.poll then
    let server := server.setConn event.conn { hs with count := (hs.count + 1) % 2 ^ 16 }
    if hs.count ≥ 100 then server.refuse event else (server, .quiet)
  else if event.connected then (server.reset event.conn, .quiet)
  else if event.newdata && hs.state = .none then server.handleRequest board event
  else if hs.state = .serialRequest then (server.reset event.conn, .close)
  else if event.acked then server.handleAck event
  else if event.rexmit then
    if hs.state = .fileRequest then (server, sendPage event hs) else (server, .quiet)
  else if event.newdata && hs.state = .uploadRequest then server.handleUpload board event
  else (server, .quiet)

/-- The server when `httpd_init` has run. -/
def booted (ram : Memory UInt8) (dataPointer netBootFileXferSize : Nat) : Server where
  readyForUpgrade := false
  upgradeType := .firmware
  netBootFileXferSize := netBootFileXferSize
  dataPointer := dataPointer
  postDone := false
  uploadFailed := false
  dataStartFound := false
  boundary := .null
  ram := ram
  conns := fun _ => ⟨.none, 0, .none, 0, 0⟩

end Rut9xx.Httpd
