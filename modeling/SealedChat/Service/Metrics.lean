/-!
# Metrics

Counters of what a service has done. They are words of 64 bits and wrap around.
-/

namespace SealedChat

structure Metrics where
  connectionsTotal : UInt64 := 0
  connectionsActive : UInt64 := 0
  handshakesTotal : UInt64 := 0
  handshakesSuccess : UInt64 := 0
  handshakesFailed : UInt64 := 0
  sessionsBound : UInt64 := 0
  messagesSent : UInt64 := 0
  messagesReceived : UInt64 := 0
  bytesSent : UInt64 := 0
  bytesReceived : UInt64 := 0
  decodingErrors : UInt64 := 0
  integrityMismatches : UInt64 := 0
  connectionErrors : UInt64 := 0
deriving DecidableEq, Repr

namespace Metrics

/-- What is counted. -/
inductive Event where
  | connectionEstablished
  | connectionClosed
  | handshakeAttempt
  | handshakeSuccess
  | handshakeFailed
  | sessionBound
  | sessionUnbound
  | messageSent (size : UInt64)
  | messageReceived (size : UInt64)
  | decodingError
  | integrityMismatch
  | connectionError
deriving DecidableEq, Repr

def count (m : Metrics) : Event → Metrics
  | .connectionEstablished =>
    { m with
      connectionsTotal := m.connectionsTotal + 1
      connectionsActive := m.connectionsActive + 1 }
  | .connectionClosed => { m with connectionsActive := m.connectionsActive - 1 }
  | .handshakeAttempt => { m with handshakesTotal := m.handshakesTotal + 1 }
  | .handshakeSuccess => { m with handshakesSuccess := m.handshakesSuccess + 1 }
  | .handshakeFailed => { m with handshakesFailed := m.handshakesFailed + 1 }
  | .sessionBound => { m with sessionsBound := m.sessionsBound + 1 }
  | .sessionUnbound => { m with sessionsBound := m.sessionsBound - 1 }
  | .messageSent size =>
    { m with messagesSent := m.messagesSent + 1, bytesSent := m.bytesSent + size }
  | .messageReceived size =>
    { m with messagesReceived := m.messagesReceived + 1, bytesReceived := m.bytesReceived + size }
  | .decodingError => { m with decodingErrors := m.decodingErrors + 1 }
  | .integrityMismatch => { m with integrityMismatches := m.integrityMismatches + 1 }
  | .connectionError => { m with connectionErrors := m.connectionErrors + 1 }

/-- The counters with their names, in order. -/
def fields (m : Metrics) : List (String × UInt64) :=
  [("connections_total", m.connectionsTotal), ("connections_active", m.connectionsActive),
    ("handshakes_total", m.handshakesTotal), ("handshakes_success", m.handshakesSuccess),
    ("handshakes_failed", m.handshakesFailed), ("sessions_bound", m.sessionsBound),
    ("messages_sent", m.messagesSent), ("messages_received", m.messagesReceived),
    ("bytes_sent", m.bytesSent), ("bytes_received", m.bytesReceived),
    ("decoding_errors", m.decodingErrors), ("integrity_mismatches", m.integrityMismatches),
    ("connection_errors", m.connectionErrors)]

/-- The text of the event that reports the counters. -/
def reportText : String := "Chat metrics snapshot"

end Metrics

end SealedChat
