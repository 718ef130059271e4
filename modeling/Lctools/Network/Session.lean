import Lctools.Foundation.Run
import Lctools.Network.Headers
import Mathlib.Data.Int.Notation

/-! # Sessions

`slice_packet` starts a session from the first packet that gets past the check of the IP
header, before the check of the TCP header. `same_session` and `packet_direction` compare a
packet with the two ends of a session.
-/

namespace Lctools.Network

open ByteMemory

/-! ## The program -/

/-- `same_session`; `none` is NULL. Each comparison reads its field only when it is made. -/
def sameSession (ses : Option TcpSession) (pktInfo : Option PktInfo) (memory : List UInt8) :
    Except Fault ℤ :=
  match ses, pktInfo with
  | some ses, some pktInfo => do
      let source ← fieldAt memory pktInfo.ip ipSrc
      if ses.ipSrc = source then
        let sport ← fieldAt memory pktInfo.tcp thSport
        if ses.sport = sport then
          let destination ← fieldAt memory pktInfo.ip ipDst
          if ses.ipDes = destination then
            let dport ← fieldAt memory pktInfo.tcp thDport
            if ses.dport = dport then .ok 1 else .ok 0
          else .ok 0
        else .ok 0
      else
        let destination ← fieldAt memory pktInfo.ip ipDst
        if ses.ipSrc = destination then
          let dport ← fieldAt memory pktInfo.tcp thDport
          if ses.sport = dport then
            let source ← fieldAt memory pktInfo.ip ipSrc
            if ses.ipDes = source then
              let sport ← fieldAt memory pktInfo.tcp thSport
              if ses.dport = sport then .ok 1 else .ok 0
            else .ok 0
          else .ok 0
        else .ok 0
  | _, _ => .ok (-1)

/-- What `pcap_loop` hands to `read_packet`: the captured length, and the buffer from the
first byte of the frame to its end, with what happens to be in `pkt_info`. -/
structure Captured where
  pktInfo : PktInfo
  caplen : ℕ
  buffer : List UInt8
  inside : caplen ≤ buffer.length
  deriving DecidableEq, Repr

/-- `read_packet` with the bytes behind the captured ones, which nothing keeps it from. -/
def readCaptured (packet : Captured) (session : TcpSession) : Except Fault (Option Sliced) :=
  slicePacket (some packet.buffer)
    (some { packet.pktInfo with len := UInt16.ofNat packet.caplen }) session

/-- One call of `read_packet` by `pcap_loop`: the payload and the session it leaves. -/
def receive (session : TcpSession) (packet : Captured) :
    Except Fault (Option ℕ × TcpSession) := do
  match ← readCaptured packet session with
  | some sliced => .ok (sliced.payload, sliced.session)
  | none => .ok (none, session)

/-! ## The ends of a packet -/

/-- The addresses and ports in the headers of a packet. -/
structure FourTuple where
  source : ℕ
  sport : ℕ
  destination : ℕ
  dport : ℕ
  deriving DecidableEq, Repr

def TcpSession.forward (ses : TcpSession) : FourTuple :=
  ⟨ses.ipSrc, ses.sport, ses.ipDes, ses.dport⟩

def TcpSession.backward (ses : TcpSession) : FourTuple :=
  ⟨ses.ipDes, ses.dport, ses.ipSrc, ses.sport⟩

/-- The headers that `pkt_info` points to have these addresses and ports. -/
structure HasTuple (memory : List UInt8) (pktInfo : PktInfo) (tuple : FourTuple) : Prop where
  source : fieldAt memory pktInfo.ip ipSrc = .ok tuple.source
  sport : fieldAt memory pktInfo.tcp thSport = .ok tuple.sport
  destination : fieldAt memory pktInfo.ip ipDst = .ok tuple.destination
  dport : fieldAt memory pktInfo.tcp thDport = .ok tuple.dport

/-- `same_session` knows the packets of the session in both directions, and
`packet_direction` tells the directions apart. -/
structure Recognises (ses : TcpSession) (pktInfo : PktInfo) (memory : List UInt8)
    (tuple : FourTuple) : Prop where
  same : sameSession (some ses) (some pktInfo) memory = .ok 1 ↔
    tuple = ses.forward ∨ tuple = ses.backward
  direction : sameSession (some ses) (some pktInfo) memory = .ok 1 →
    (ses.ipSrc, ses.sport) ≠ (ses.ipDes, ses.dport) →
    (tuple = ses.forward →
      packetDirection (some ses) (some pktInfo) memory = .ok packetFromClient) ∧
    (tuple = ses.backward →
      packetDirection (some ses) (some pktInfo) memory = .ok packetFromServer)

section Tuple

variable {ses : TcpSession} {pktInfo : PktInfo} {memory : List UInt8} {tuple : FourTuple}

theorem sameSession_eq_one_iff (has : HasTuple memory pktInfo tuple) :
    sameSession (some ses) (some pktInfo) memory = .ok 1 ↔
      tuple = ses.forward ∨ ses.ipSrc ≠ tuple.source ∧ tuple = ses.backward := by
  have evaluated : sameSession (some ses) (some pktInfo) memory = .ok
      (if ses.ipSrc = tuple.source then
        if ses.sport = tuple.sport ∧ ses.ipDes = tuple.destination ∧ ses.dport = tuple.dport then 1
        else 0
      else if ses.ipSrc = tuple.destination ∧ ses.sport = tuple.dport ∧ ses.ipDes = tuple.source ∧
        ses.dport = tuple.sport then 1 else 0) := by
    simp only [sameSession, has.source, has.sport, has.destination, has.dport, bind, Except.bind]
    split_ifs <;> simp_all
  rw [evaluated]
  rcases tuple with ⟨source, sport, destination, dport⟩
  simp only [TcpSession.forward, TcpSession.backward, FourTuple.mk.injEq]
  split_ifs <;> simp_all <;> tauto

theorem packetDirection_eq (has : HasTuple memory pktInfo tuple) :
    packetDirection (some ses) (some pktInfo) memory =
      if ses.ipSrc = tuple.source ∧ ses.sport = tuple.sport then .ok packetFromClient
      else if ses.ipDes = tuple.source ∧ ses.dport = tuple.sport then .ok packetFromServer
      else .ok 255 := by
  rw [packetDirection, Fallible.bind_ok has.source, Fallible.bind_ok has.sport]

theorem packetDirection_forward (has : HasTuple memory pktInfo ses.forward) :
    packetDirection (some ses) (some pktInfo) memory = .ok packetFromClient := by
  rw [packetDirection_eq has]
  exact if_pos ⟨rfl, rfl⟩

theorem packetDirection_backward (has : HasTuple memory pktInfo ses.backward)
    (different : (ses.ipSrc, ses.sport) ≠ (ses.ipDes, ses.dport)) :
    packetDirection (some ses) (some pktInfo) memory = .ok packetFromServer := by
  have notFirst : ¬(ses.ipSrc = ses.backward.source ∧ ses.sport = ses.backward.sport) := by
    intro both
    exact different (Prod.ext both.1 both.2)
  rw [packetDirection_eq has, if_neg notFirst]
  exact if_pos ⟨rfl, rfl⟩

/-- The packets of a session are recognised, except for those that go back in a session
between two ports of one address. -/
theorem recognises_iff (has : HasTuple memory pktInfo tuple) :
    Recognises ses pktInfo memory tuple ↔
      ¬(ses.ipSrc = ses.ipDes ∧ ses.sport ≠ ses.dport ∧ tuple = ses.backward) := by
  have computed := @sameSession_eq_one_iff ses pktInfo memory tuple has
  constructor
  · intro recognises looped
    rcases looped with ⟨sameAddress, ports, rfl⟩
    rcases computed.mp (recognises.same.mpr (.inr rfl)) with forward | ⟨different, _⟩
    · exact ports (congrArg FourTuple.dport forward)
    · exact different sameAddress
  · intro notLooped
    constructor
    · rw [computed]
      constructor
      · intro found
        exact found.imp_right And.right
      · intro belongs
        rcases belongs with forward | rfl
        · exact .inl forward
        · by_cases sameAddress : ses.ipSrc = ses.ipDes
          · have samePort : ses.sport = ses.dport := by
              by_contra ports
              exact notLooped ⟨sameAddress, ports, rfl⟩
            apply Or.inl
            rw [TcpSession.backward, TcpSession.forward, sameAddress, samePort]
          · exact .inr ⟨sameAddress, rfl⟩
    · intro _ different
      refine ⟨?_, ?_⟩
      · rintro rfl
        exact packetDirection_forward has
      · rintro rfl
        exact packetDirection_backward has different

end Tuple

/-- The IP and TCP headers of a packet from port 5000 to port 80 of the loopback address. -/
def loopbackHeaders : List UInt8 :=
  [0x45, 0, 40, 0, 1, 0, 0, 0, 64, 6, 0, 0] ++ [127, 0, 0, 1, 127, 0, 0, 1] ++
    [0x88, 0x13, 80, 0, 1, 0, 0, 0, 2, 0, 0, 0] ++ [0x50, 0x10, 0, 2, 0, 0, 0, 0]

/-- The session to which the packet belongs as an answer. -/
def loopbackSession : TcpSession := ⟨sessionStart, 0x0100007f, 80, 0x0100007f, 5000⟩

theorem loopbackHeaders_hasTuple :
    HasTuple loopbackHeaders ⟨0, 0, 20, 40, 0, 0⟩ ⟨0x0100007f, 5000, 0x0100007f, 80⟩ :=
  ⟨by decide, by decide, by decide, by decide⟩

/-- The packet is recognised by the session that it opens. -/
theorem recognises_opening_packet :
    HasTuple loopbackHeaders ⟨0, 0, 20, 40, 0, 0⟩ ⟨0x0100007f, 5000, 0x0100007f, 80⟩ ∧
    Recognises ⟨sessionStart, 0x0100007f, 5000, 0x0100007f, 80⟩ ⟨0, 0, 20, 40, 0, 0⟩
      loopbackHeaders ⟨0x0100007f, 5000, 0x0100007f, 80⟩ :=
  ⟨loopbackHeaders_hasTuple, (recognises_iff loopbackHeaders_hasTuple).mpr (by decide)⟩

/-- The answer is not. -/
theorem not_recognises_loopback :
    HasTuple loopbackHeaders ⟨0, 0, 20, 40, 0, 0⟩ loopbackSession.backward ∧
    ¬Recognises loopbackSession ⟨0, 0, 20, 40, 0, 0⟩ loopbackHeaders
      loopbackSession.backward := by
  refine ⟨loopbackHeaders_hasTuple, ?_⟩
  intro recognises
  have refused : sameSession (some loopbackSession) (some ⟨0, 0, 20, 40, 0, 0⟩) loopbackHeaders =
      .ok 0 := by
    decide
  have accepted := recognises.same.mpr (.inr rfl)
  rw [refused] at accepted
  cases accepted

/-! ## The session of a capture -/

/-- The frame gets past both checks of a header length. -/
def accepts (frame : List UInt8) : Bool :=
  decide (3 ≤ ipWords frame ∧ 5 ≤ tcpWords frame)

def unstarted : TcpSession := ⟨sessionNoInit, 0, 0, 0, 0⟩

/-- The session between the addresses and ports in the converted headers of a frame. -/
def headerSession (frame : List UInt8) : Except Fault TcpSession := do
  let memory ← ntohIp sniffSizeEthernet frame
  let memory ← ntohTcp (tcpStart frame) memory
  startSession (located frame ⟨0, 0, 0, 0, 0, 0⟩) memory unstarted

/-- `slice_packet` touches no byte behind the end of the buffer. -/
def Readable (frame : List UInt8) : Prop :=
  sniffSizeEthernet < frame.length ∧
    (ipWords frame < 3 ∨ tcpStart frame + 20 ≤ frame.length)

/-- The frame is refused because of its TCP header, after it started the session. -/
def StartsRefused (session : TcpSession) (frame : List UInt8) : Prop :=
  session.flag = sessionNoInit ∧ 3 ≤ ipWords frame ∧ tcpStart frame + 20 ≤ frame.length ∧
    tcpWords frame < 5

/-- The frame can be read, and does not start a session and get refused. -/
structure Harmless (session : TcpSession) (frame : List UInt8) : Prop where
  readable : Readable frame
  notStarts : ¬StartsRefused session frame

section Outcome

variable {frame : List UInt8} {session : TcpSession}

/-- How a call of `slice_packet` can end. -/
inductive Outcome (session : TcpSession) (frame : List UInt8) : Except Fault Sliced → Prop
  | fault {fault : Fault} : ¬Readable frame → Outcome session frame (.error fault)
  | kept {sliced : Sliced} : sliced.payload = none → sliced.session = session →
      accepts frame = false → Harmless session frame → Outcome session frame (.ok sliced)
  | overwritten {sliced : Sliced} : sliced.payload = none → accepts frame = false →
      StartsRefused session frame → headerSession frame = .ok sliced.session →
      Outcome session frame (.ok sliced)
  | accepted {sliced : Sliced} : sliced.payload ≠ none → accepts frame = true →
      Harmless session frame →
      (session.flag = sessionNoInit → headerSession frame = .ok sliced.session) →
      (session.flag ≠ sessionNoInit → sliced.session = session) →
      Outcome session frame (.ok sliced)

end Outcome

section Capture

variable {session : TcpSession} {packet : Captured} {packets : List Captured}

end Capture

end Lctools.Network
