import AdaptiveMsg.Bytes.BigEndian
import AdaptiveMsg.Error

/-!
# Wire — control frames

The payloads of the control frames of `recovery_protocol.rs`: ACK, PING and CLOSE.
-/

namespace AdaptiveMsg

open Bytes

def controlTypeAck : UInt8 := 1
def controlTypePing : UInt8 := 2
def controlTypeClose : UInt8 := 3

def controlAckFrameLen : Nat := 9
def controlPingLen : Nat := 1
def controlCloseLen : Nat := 1

def buildAckControlPayload (lastRecvSeq : UInt64) : List UInt8 :=
  controlTypeAck :: toBE 8 lastRecvSeq.toNat

/-- The type of a control frame and the value that an ACK carries. -/
def parseControlPayload : List UInt8 → Except Error (UInt8 × UInt64)
  | [] => .error (.invalidMessage "empty control payload")
  | controlType :: value =>
    if controlType = controlTypeAck then
      if value.length + 1 ≠ controlAckFrameLen then
        .error (.invalidMessage "invalid ack control payload length")
      else .ok (controlType, UInt64.ofNat (ofBE value))
    else if controlType = controlTypePing then
      if value.length + 1 ≠ controlPingLen then
        .error (.invalidMessage "invalid heartbeat control payload length")
      else .ok (controlType, 0)
    else if controlType = controlTypeClose then
      if value.length + 1 ≠ controlCloseLen then
        .error (.invalidMessage "invalid close control payload length")
      else .ok (controlType, 0)
    else .error (.invalidMessage "unknown control frame type")

end AdaptiveMsg
