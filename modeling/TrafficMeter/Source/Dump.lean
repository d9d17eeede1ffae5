import TrafficMeter.Amount
import TrafficMeter.Failure
import TrafficMeter.Text.Blank
import TrafficMeter.Text.Line
import TrafficMeter.Text.Number

/-!
The dump of a VPN interface. Its first line describes the interface, every later one a peer, in
fields between tabs. Blank lines are skipped but counted. `Dump.read` reads a dump and `Dump.write`
writes one that reads back as the same peers.
-/

namespace TrafficMeter

/-- The counters of one peer as its interface reports them. The endpoint is empty if none is
known, the latest handshake 0 if there was none. -/
structure PeerReading where
  peer : String
  rx : Nat
  tx : Nat
  endpoint : String
  lastHandshake : Int
  deriving DecidableEq, Repr

namespace Dump

def interfaceFields : Nat := 4

/-- The fields of a peer's line: key, preshared key, endpoint, allowed addresses, latest handshake,
received bytes, sent bytes, keepalive. -/
def peerFields : Nat := 8

def noEndpoint : String := "(none)"

def isBlankLine (line : List Char) : Bool := line.all Text.isBlank

def field {α : Type} (line : Nat) (name : String) (parse : List Char → Option α)
    (text : List Char) : Except SourceFault α :=
  match parse text with
  | some value => .ok value
  | none => .error (.invalidField line name (String.ofList text))

def moment? : List Char → Option Int := Text.signed? minTime maxTime

def count? : List Char → Option Nat := Text.unsigned? maxCount

def endpointOf (text : List Char) : String :=
  let endpoint := String.ofList text
  if endpoint = noEndpoint then "" else endpoint

def readPeer (line : Nat) (fields : List (List Char)) : Except SourceFault PeerReading :=
  match fields with
  | [key, _, endpoint, _, handshake, received, sent, _] => do
    let lastHandshake ← field line "latest-handshake" moment? handshake
    let rx ← field line "transfer-rx" count? received
    let tx ← field line "transfer-tx" count? sent
    return { peer := String.ofList key, rx, tx, endpoint := endpointOf endpoint, lastHandshake }
  | _ => .error (.fieldCount line peerFields fields.length)

def readPeers (line : Nat) : List (List Char) → Except SourceFault (List PeerReading)
  | [] => .ok []
  | text :: rest =>
    if isBlankLine text then readPeers (line + 1) rest
    else do
      let peer ← readPeer line (Text.pieces '\t' text)
      return peer :: (← readPeers (line + 1) rest)

/-- The peers of all lines, the first of which has to describe the interface. -/
def readLines : List (List Char) → Except SourceFault (List PeerReading)
  | [] => .ok []
  | first :: rest =>
    let found := (Text.pieces '\t' first).length
    if isBlankLine first || found = interfaceFields then readPeers 2 rest
    else .error (.fieldCount 1 interfaceFields found)

def read (text : String) : Except SourceFault (List PeerReading) :=
  readLines (Text.lines text.toList)

/-- The fields of a peer's line. Keys and addresses that a reading does not carry are left out. -/
def fieldsOf (p : PeerReading) : List (List Char) := [
  p.peer.toList, noEndpoint.toList,
  (if p.endpoint.isEmpty then noEndpoint else p.endpoint).toList, noEndpoint.toList,
  (toString p.lastHandshake).toList, (toString p.rx).toList, (toString p.tx).toList,
  "off".toList]

def writeLine (fields : List (List Char)) : List Char := ['\t'].intercalate fields ++ ['\n']

def write (peers : List PeerReading) : String :=
  let interface := ["key".toList, "key".toList, "0".toList, "off".toList]
  String.ofList ((interface :: peers.map fieldsOf).flatMap writeLine)

end Dump

end TrafficMeter
