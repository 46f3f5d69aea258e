import Sockd.Error

/-!
# Frames on the wire (`frame.rs`)

The header codec, `read_frame` and `write_frame` as the source has them, generic
in the reader and the writer. A `u32` length is a `UInt32` in the header and a
`Nat` (`usize`) everywhere else; on the targets of the library every `u32` is a
`usize`.
-/

namespace Sockd

open Rust Effects

/-- `MAGIC`: "SOCK". -/
def magic : UInt32 := 0x534f434b

/-- `VERSION`. -/
def version : UInt8 := 1

/-- `HEADER_LEN`. -/
def headerLen : Nat := 12

/-- `DEFAULT_MAX_PAYLOAD_LEN`. -/
def defaultMaxPayloadLen : Nat := 16 * 1024 * 1024

/-- `u32::MAX as usize`. -/
def u32Max : Nat := 2 ^ 32 - 1

/-- `FrameKind`. -/
inductive FrameKind
  | request | response | ping | pong | error | shutdown | shutdownAck
  deriving DecidableEq, Repr

namespace FrameKind

/-- `self.kind as u8`. -/
def toByte : FrameKind → UInt8
  | request => 1
  | response => 2
  | ping => 3
  | pong => 4
  | error => 5
  | shutdown => 6
  | shutdownAck => 7

/-- `FrameKind::label`. -/
def label : FrameKind → String
  | request => "request"
  | response => "response"
  | ping => "ping"
  | pong => "pong"
  | error => "error"
  | shutdown => "shutdown"
  | shutdownAck => "shutdown-ack"

/-- The derived `Debug` text. -/
def debug : FrameKind → String
  | request => "Request"
  | response => "Response"
  | ping => "Ping"
  | pong => "Pong"
  | error => "Error"
  | shutdown => "Shutdown"
  | shutdownAck => "ShutdownAck"

/-- `TryFrom<u8> for FrameKind`. -/
def tryFrom (value : UInt8) : Except Error FrameKind :=
  if value = 1 then .ok request
  else if value = 2 then .ok response
  else if value = 3 then .ok ping
  else if value = 4 then .ok pong
  else if value = 5 then .ok error
  else if value = 6 then .ok shutdown
  else if value = 7 then .ok shutdownAck
  else .error (.unknownFrameKind value)

end FrameKind

/-- `Frame`. -/
structure Frame where
  kind : FrameKind
  flags : UInt16
  payload : Bytes
  deriving DecidableEq

/-- `Header`. -/
structure Header where
  kind : FrameKind
  flags : UInt16
  payloadLen : UInt32
  deriving DecidableEq

/-- `Header::encode`. -/
def Header.encode (h : Header) : Bytes :=
  Bytes.be 4 magic.toNat ++ [version] ++ [h.kind.toByte] ++ Bytes.be 2 h.flags.toNat ++
    Bytes.be 4 h.payloadLen.toNat

/-- `Header::decode`. -/
def Header.decode (buf : Filled headerLen) : Except Error Header :=
  let m := UInt32.ofNat (Bytes.ofBe (buf.1.take 4))
  if m ≠ magic then .error (.invalidFrameMagic m)
  else
    let v := buf.1.getD 4 0
    if v ≠ version then .error (.unsupportedFrameVersion v)
    else
      match FrameKind.tryFrom (buf.1.getD 5 0) with
      | .error e => .error e
      | .ok kind => .ok {
          kind := kind
          flags := UInt16.ofNat (Bytes.ofBe ((buf.1.drop 6).take 2))
          payloadLen := UInt32.ofNat (Bytes.ofBe ((buf.1.drop 8).take 4)) }

variable {E : Sig}

/-- `read_frame`. -/
def readFrame (reader : Reader E) (maxPayloadLen : Nat) : Try E Error Frame := do
  let headerBuf ← (reader.readExact headerLen).mapErr .io
  let header ← Try.ofExcept (Header.decode headerBuf)
  let payloadLen := header.payloadLen.toNat
  if payloadLen > maxPayloadLen then
    Try.fail (.payloadTooLarge payloadLen maxPayloadLen)
  else do
    let payload ← (reader.readExact payloadLen).mapErr .io
    return { kind := header.kind, flags := header.flags, payload := payload.1 }

/-- `write_frame_with_flags`. -/
def writeFrameWithFlags (writer : Writer E) (kind : FrameKind) (flags : UInt16)
    (payload : Bytes) : Try E Error Unit :=
  if payload.length > u32Max then
    Try.fail (.payloadTooLarge payload.length u32Max)
  else do
    let header : Header := { kind, flags, payloadLen := UInt32.ofNat payload.length }
    (writer.writeAll header.encode).mapErr .io
    (writer.writeAll payload).mapErr .io
    writer.flush.mapErr .io

/-- `write_frame`. -/
def writeFrame (writer : Writer E) (kind : FrameKind) (payload : Bytes) : Try E Error Unit :=
  writeFrameWithFlags writer kind 0 payload

end Sockd
