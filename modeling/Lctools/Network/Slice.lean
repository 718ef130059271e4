import Lctools.Foundation.ByteMemory
import Mathlib.Data.List.GetD
import Mathlib.Data.List.TakeDrop

/-! # `network/read_packet.c`

The headers of a captured frame. A pointer into the frame is its distance from the
first byte; a byte that was not captured cannot be touched. The machine has the least
significant byte of a number first. `tcp_session` is never NULL in `slice_packet`.
-/

namespace Lctools.Network

open ByteMemory

/-! ## Data -/

def sniffSizeEthernet : ℕ := 14

def packetFromClient : UInt8 := 0x08
def packetFromServer : UInt8 := 0x09

def sessionNoInit : UInt8 := 0
def sessionStart : UInt8 := 1

def sniffIpHl (ipVh1 : ℕ) : ℕ := ipVh1 &&& 0x0f

def sniffThOff (thOffx2 : ℕ) : ℕ := (thOffx2 &&& 0xf0) >>> 4

/-- `struct sniff_ip`. -/
def ipVh1 : Field := ⟨0, 1⟩
def ipTos : Field := ⟨1, 1⟩
def ipLen : Field := ⟨2, 2⟩
def ipId : Field := ⟨4, 2⟩
def ipTtl : Field := ⟨8, 1⟩
def ipP : Field := ⟨9, 1⟩
def ipSum : Field := ⟨10, 2⟩
def ipSrc : Field := ⟨12, 4⟩
def ipDst : Field := ⟨16, 4⟩

/-- `struct sniff_tcp`. -/
def thSport : Field := ⟨0, 2⟩
def thDport : Field := ⟨2, 2⟩
def thSeq : Field := ⟨4, 4⟩
def thAck : Field := ⟨8, 4⟩
def thOffx2 : Field := ⟨12, 1⟩
def thFlags : Field := ⟨13, 1⟩
def thWin : Field := ⟨14, 2⟩
def thSum : Field := ⟨16, 2⟩
def thUrp : Field := ⟨18, 2⟩

structure PktInfo where
  ethernet : ℕ
  ip : ℕ
  tcp : ℕ
  payload : ℕ
  len : UInt16
  direction : UInt8
  deriving DecidableEq, Repr

structure TcpSession where
  flag : UInt8
  ipSrc : ℕ
  sport : ℕ
  ipDes : ℕ
  dport : ℕ
  deriving DecidableEq, Repr

/-! ## The program -/

/-- A field of the record at `base`. -/
def fieldAt (memory : List UInt8) (base : ℕ) (field : Field) : Except Fault ℕ :=
  load memory (base + field.offset) field.width

/-- `ntoh_ip`; it passes over `ip_off` and stops before the addresses. -/
def ntohIp (ip : ℕ) (memory : List UInt8) : Except Fault (List UInt8) :=
  convertAll ip [ipVh1, ipTos, ipLen, ipId, ipTtl, ipP, ipSum] memory

def ntohTcp (tcp : ℕ) (memory : List UInt8) : Except Fault (List UInt8) :=
  convertAll tcp [thSport, thDport, thSeq, thAck, thOffx2, thFlags, thWin, thSum, thUrp] memory

/-- `packet_direction`; `none` is NULL, and 255 is `(u_char)-1`. -/
def packetDirection (ses : Option TcpSession) (pktInfo : Option PktInfo) (memory : List UInt8) :
    Except Fault UInt8 :=
  match ses, pktInfo with
  | some ses, some pktInfo => do
      let source ← fieldAt memory pktInfo.ip ipSrc
      let sport ← fieldAt memory pktInfo.tcp thSport
      if ses.ipSrc = source ∧ ses.sport = sport then .ok packetFromClient
      else if ses.ipDes = source ∧ ses.dport = sport then .ok packetFromServer
      else .ok 255
  | _, _ => .ok 255

/-- What a call of `slice_packet` returns, and what it leaves behind. -/
structure Sliced where
  payload : Option ℕ
  memory : List UInt8
  pktInfo : PktInfo
  session : TcpSession
  deriving DecidableEq, Repr

/-- The part of `slice_packet` that fills in a session without any packet. -/
def startSession (pktInfo : PktInfo) (memory : List UInt8) (session : TcpSession) :
    Except Fault TcpSession :=
  if session.flag = sessionNoInit then do
    let source ← fieldAt memory pktInfo.ip ipSrc
    let destination ← fieldAt memory pktInfo.ip ipDst
    let sport ← fieldAt memory pktInfo.tcp thSport
    let dport ← fieldAt memory pktInfo.tcp thDport
    .ok ⟨sessionStart, source, sport, destination, dport⟩
  else .ok session

/-- `slice_packet` for pointers that are not NULL. -/
def sliceFrame (memory : List UInt8) (pktInfo : PktInfo) (session : TcpSession) :
    Except Fault Sliced := do
  let pktInfo := { pktInfo with ethernet := 0, ip := sniffSizeEthernet }
  let sizeIp := sniffIpHl (← fieldAt memory pktInfo.ip ipVh1) * 4
  if sizeIp < 10 then .ok ⟨none, memory, pktInfo, session⟩
  else
    let memory ← ntohIp pktInfo.ip memory
    let pktInfo := { pktInfo with tcp := sniffSizeEthernet + sizeIp }
    let memory ← ntohTcp pktInfo.tcp memory
    let session ← startSession pktInfo memory session
    let sizeTcp := sniffThOff (← fieldAt memory pktInfo.tcp thOffx2) * 4
    if sizeTcp < 20 then .ok ⟨none, memory, pktInfo, session⟩
    else
      let pktInfo := { pktInfo with
        payload := sniffSizeEthernet + sizeIp + sizeTcp
        len := pktInfo.len - UInt16.ofNat (sniffSizeEthernet + sizeIp + sizeTcp) }
      let direction ← packetDirection (some session) (some pktInfo) memory
      .ok ⟨some pktInfo.payload, memory, { pktInfo with direction := direction }, session⟩

/-- `slice_packet`; for a pointer that is NULL it returns NULL and changes nothing. -/
def slicePacket (packet : Option (List UInt8)) (pktInfo : Option PktInfo)
    (session : TcpSession) : Except Fault (Option Sliced) :=
  match packet, pktInfo with
  | some memory, some pktInfo => (sliceFrame memory pktInfo session).map some
  | _, _ => .ok none

/-- `read_packet`, up to the display. The variable `pkt_info` has what happens to be in
it, except for the captured length. -/
def readPacket (pktInfo : PktInfo) (frame : List UInt8) (session : TcpSession) :
    Except Fault (Option Sliced) :=
  slicePacket (some frame) (some { pktInfo with len := UInt16.ofNat frame.length }) session

/-! ## What the frame says of itself -/

/-- The length of the IP header in words of four bytes. -/
def ipWords (frame : List UInt8) : ℕ :=
  sniffIpHl (frame.getD sniffSizeEthernet 0).toNat

def tcpStart (frame : List UInt8) : ℕ :=
  sniffSizeEthernet + ipWords frame * 4

/-- The length of the TCP header in words of four bytes. -/
def tcpWords (frame : List UInt8) : ℕ :=
  sniffThOff (frame.getD (tcpStart frame + thOffx2.offset) 0).toNat

def payloadStart (frame : List UInt8) : ℕ :=
  tcpStart frame + tcpWords frame * 4

/-- The headers and the payload follow each other without a gap, the headers are as long
as the frame says and long enough, and together they are the captured bytes. -/
structure Carved (frame : List UInt8) (pktInfo : PktInfo) (payload : ℕ) : Prop where
  ethernet : pktInfo.ethernet = 0
  ip : pktInfo.ip = sniffSizeEthernet
  tcp : pktInfo.tcp = pktInfo.ip + ipWords frame * 4
  start : pktInfo.payload = pktInfo.tcp + tcpWords frame * 4
  returned : payload = pktInfo.payload
  ipHeader : 20 ≤ ipWords frame * 4
  tcpHeader : 20 ≤ tcpWords frame * 4
  inside : payload ≤ frame.length
  length : payload + pktInfo.len.toNat = frame.length

def RefusedOrCarved (pktInfo : PktInfo) (frame : List UInt8) (session : TcpSession) : Prop :=
  ∃ sliced, readPacket pktInfo frame session = .ok (some sliced) ∧
    ∀ payload, sliced.payload = some payload → Carved frame sliced.pktInfo payload

/-- The frame is refused before a byte is touched that was not captured, or its headers
are long enough and captured, and what follows them fits into `len`. -/
def Carvable (frame : List UInt8) : Prop :=
  sniffSizeEthernet < frame.length ∧
    (ipWords frame < 3 ∨
      tcpStart frame + 20 ≤ frame.length ∧
        (tcpWords frame < 5 ∨
          5 ≤ ipWords frame ∧ payloadStart frame ≤ frame.length ∧
            frame.length - payloadStart frame < 65536))

instance (frame : List UInt8) : Decidable (Carvable frame) :=
  inferInstanceAs (Decidable (_ ∧ (_ ∨ _ ∧ (_ ∨ _ ∧ _ ∧ _))))

/-! ## Single fields -/

theorem fieldAt_ok {memory : List UInt8} {base : ℕ} {field : Field}
    (fits : base + field.offset + field.width ≤ memory.length) :
    ∃ number, fieldAt memory base field = .ok number :=
  ⟨_, if_pos fits⟩

theorem fieldAt_byte {memory : List UInt8} {base : ℕ} {field : Field} (single : field.width = 1)
    (inside : base + field.offset < memory.length) :
    fieldAt memory base field = .ok (memory.getD (base + field.offset) 0).toNat := by
  have fits : base + field.offset + 1 ≤ memory.length := inside
  rw [fieldAt, single, load, if_pos fits, bytesAt, List.getD_eq_getElem memory 0 inside,
    List.take_one_drop_eq_of_lt_length inside]
  rfl

theorem fieldAt_outside {memory : List UInt8} {base : ℕ} {field : Field}
    (outside : memory.length < base + field.offset + field.width) :
    ∃ fault, fieldAt memory base field = .error fault :=
  ⟨_, if_neg (Nat.not_le_of_lt outside)⟩

/-! ## One call -/

theorem ntohIp_spec {ip : ℕ} {memory : List UInt8} (fits : ip + 12 ≤ memory.length) :
    ∃ after, ntohIp ip memory = .ok after ∧ after.length = memory.length ∧
      ∀ index : ℕ, ip + 12 ≤ index → after[index]? = memory[index]? := by
  have inside : ∀ field ∈ [ipVh1, ipTos, ipLen, ipId, ipTtl, ipP, ipSum],
      field.offset + field.width ≤ 12 := by decide
  rcases convertAll_spec (fun field member => by
    have bound := inside field member
    show ip + field.offset + field.width ≤ memory.length
    omega) with ⟨after, converts, length, kept⟩
  refine ⟨after, converts, length, ?_⟩
  intro index behind
  apply kept
  intro field member
  have bound := inside field member
  exact mirror_outside (by omega)

theorem ntohTcp_spec {tcp : ℕ} {memory : List UInt8} (fits : tcp + 20 ≤ memory.length) :
    ∃ after, ntohTcp tcp memory = .ok after ∧ after.length = memory.length ∧
      after[tcp + thOffx2.offset]? = memory[tcp + thOffx2.offset]? := by
  have inside : ∀ field ∈ [thSport, thDport, thSeq, thAck, thOffx2, thFlags, thWin, thSum, thUrp],
      field.offset + field.width ≤ 20 ∧ (field.width = 1 ∨ field.offset + field.width ≤ 12 ∨
        13 ≤ field.offset) := by decide
  rcases convertAll_spec (fun field member => by
    have bound := (inside field member).1
    show tcp + field.offset + field.width ≤ memory.length
    omega) with ⟨after, converts, length, kept⟩
  refine ⟨after, converts, length, ?_⟩
  apply kept
  intro field member
  have offset : thOffx2.offset = 12 := rfl
  rcases (inside field member).2 with single | before | behind
  · rw [single, mirror_single]
  · exact mirror_outside (by omega)
  · exact mirror_outside (by omega)

theorem ntohTcp_fits {tcp : ℕ} {memory after : List UInt8}
    (converts : ntohTcp tcp memory = .ok after) : tcp + 20 ≤ memory.length :=
  convertAll_fits converts thUrp (by decide)

theorem startSession_ok {pktInfo : PktInfo} {memory : List UInt8} (session : TcpSession)
    (ip : pktInfo.ip + 20 ≤ memory.length) (tcp : pktInfo.tcp + 20 ≤ memory.length) :
    ∃ started, startSession pktInfo memory session = .ok started := by
  rw [startSession]
  split
  · rcases @fieldAt_ok memory pktInfo.ip ipSrc (by simp only [ipSrc]; omega) with
      ⟨source, readSource⟩
    rcases @fieldAt_ok memory pktInfo.ip ipDst (by simp only [ipDst]; omega) with
      ⟨destination, readDestination⟩
    rcases @fieldAt_ok memory pktInfo.tcp thSport (by simp only [thSport]; omega) with
      ⟨sport, readSport⟩
    rcases @fieldAt_ok memory pktInfo.tcp thDport (by simp only [thDport]; omega) with
      ⟨dport, readDport⟩
    rw [readSource, readDestination, readSport, readDport]
    exact ⟨_, rfl⟩
  · exact ⟨session, rfl⟩

theorem packetDirection_ok {pktInfo : PktInfo} {memory : List UInt8} (session : TcpSession)
    (ip : pktInfo.ip + 20 ≤ memory.length) (tcp : pktInfo.tcp + 20 ≤ memory.length) :
    ∃ direction, packetDirection (some session) (some pktInfo) memory = .ok direction := by
  rcases @fieldAt_ok memory pktInfo.ip ipSrc (by simp only [ipSrc]; omega) with ⟨source, readSource⟩
  rcases @fieldAt_ok memory pktInfo.tcp thSport (by simp only [thSport]; omega) with
    ⟨sport, readSport⟩
  rw [packetDirection, readSource, readSport]
  simp only [bind, Except.bind]
  split
  · exact ⟨_, rfl⟩
  · split
    · exact ⟨_, rfl⟩
    · exact ⟨_, rfl⟩

section Frame

variable {frame : List UInt8} (pktInfo : PktInfo) (session : TcpSession)

theorem readVh1 (captured : sniffSizeEthernet < frame.length) :
    fieldAt frame sniffSizeEthernet ipVh1 = .ok (frame.getD sniffSizeEthernet 0).toNat :=
  fieldAt_byte rfl captured

theorem sliceFrame_empty (short : frame.length ≤ sniffSizeEthernet) :
    ∃ fault, sliceFrame frame pktInfo session = .error fault := by
  rcases @fieldAt_outside frame sniffSizeEthernet ipVh1 (Nat.lt_succ_of_le short) with
    ⟨fault, failed⟩
  exact ⟨fault, Fallible.bind_error failed _⟩

theorem sliceFrame_refused (captured : sniffSizeEthernet < frame.length)
    (short : ipWords frame < 3) :
    ∃ sliced, sliceFrame frame pktInfo session = .ok sliced ∧ sliced.payload = none ∧
      sliced.session = session := by
  have small : ipWords frame * 4 < 10 := by omega
  refine ⟨⟨none, frame, { pktInfo with ethernet := 0, ip := sniffSizeEthernet }, session⟩, ?_, rfl,
    rfl⟩
  rw [sliceFrame, Fallible.bind_ok (readVh1 captured)]
  exact if_pos small

/-- Both headers are converted, and the lengths they give are read again from the same
bytes. -/
theorem sliceFrame_eq (captured : sniffSizeEthernet < frame.length) (long : 3 ≤ ipWords frame) :
    sliceFrame frame pktInfo session = (do
      let memory ← ntohIp sniffSizeEthernet frame
      let pktInfo := { pktInfo with ethernet := 0, ip := sniffSizeEthernet, tcp := tcpStart frame }
      let memory ← ntohTcp (tcpStart frame) memory
      let session ← startSession pktInfo memory session
      let sizeTcp := sniffThOff (← fieldAt memory (tcpStart frame) thOffx2) * 4
      if sizeTcp < 20 then .ok ⟨none, memory, pktInfo, session⟩
      else
        let pktInfo := { pktInfo with
          payload := tcpStart frame + sizeTcp
          len := pktInfo.len - UInt16.ofNat (tcpStart frame + sizeTcp) }
        let direction ← packetDirection (some session) (some pktInfo) memory
        .ok ⟨some pktInfo.payload, memory, { pktInfo with direction := direction }, session⟩) := by
  have large : ¬ ipWords frame * 4 < 10 := by omega
  rw [sliceFrame, Fallible.bind_ok (readVh1 captured)]
  exact if_neg large

theorem sliceFrame_truncated (captured : sniffSizeEthernet < frame.length)
    (long : 3 ≤ ipWords frame) (short : frame.length < tcpStart frame + 20) :
    ∃ fault, sliceFrame frame pktInfo session = .error fault := by
  rw [sliceFrame_eq pktInfo session captured long]
  cases convertsIp : ntohIp sniffSizeEthernet frame with
  | error fault => exact ⟨fault, rfl⟩
  | ok memory =>
      have fits : sniffSizeEthernet + 12 ≤ frame.length :=
        convertAll_fits convertsIp ipSum (by decide)
      rcases ntohIp_spec fits with ⟨after, converts, length, _⟩
      rw [convertsIp] at converts
      cases converts
      rw [Fallible.bind_ok rfl]
      cases convertsTcp : ntohTcp (tcpStart frame) memory with
      | error fault => exact ⟨fault, rfl⟩
      | ok last =>
          have fitsTcp := ntohTcp_fits convertsTcp
          omega

/-- The pointers to the headers, as the frame places them. -/
def located (frame : List UInt8) (pktInfo : PktInfo) : PktInfo :=
  { pktInfo with ethernet := 0, ip := sniffSizeEthernet, tcp := tcpStart frame }

def measured (frame : List UInt8) (pktInfo : PktInfo) : PktInfo :=
  { located frame pktInfo with
    payload := payloadStart frame
    len := pktInfo.len - UInt16.ofNat (payloadStart frame) }

/-- What a frame becomes whose headers were captured: they are converted, the session is
started, and the data offset decides. -/
theorem sliceFrame_converted (long : 3 ≤ ipWords frame)
    (captured : tcpStart frame + 20 ≤ frame.length) :
    ∃ memory last started direction, ntohIp sniffSizeEthernet frame = .ok memory ∧
      ntohTcp (tcpStart frame) memory = .ok last ∧ last.length = frame.length ∧
      startSession (located frame pktInfo) last session = .ok started ∧
      packetDirection (some started) (some (measured frame pktInfo)) last = .ok direction ∧
      sliceFrame frame pktInfo session = .ok
        (if tcpWords frame < 5 then ⟨none, last, located frame pktInfo, started⟩
        else ⟨some (payloadStart frame), last,
          { measured frame pktInfo with direction := direction }, started⟩) := by
  have behindIp : sniffSizeEthernet + 12 ≤ tcpStart frame := by
    rw [tcpStart]
    omega
  rcases ntohIp_spec (show sniffSizeEthernet + 12 ≤ frame.length by omega) with
    ⟨memory, convertsIp, lengthIp, keptIp⟩
  rcases ntohTcp_spec (show tcpStart frame + 20 ≤ memory.length by omega) with
    ⟨last, convertsTcp, lengthTcp, keptTcp⟩
  have lengths : last.length = frame.length := lengthTcp.trans lengthIp
  have ipFits : sniffSizeEthernet + 20 ≤ last.length := by omega
  have tcpFits : tcpStart frame + 20 ≤ last.length := by omega
  rcases @startSession_ok (located frame pktInfo) last session ipFits tcpFits with
    ⟨started, starts⟩
  rcases @packetDirection_ok (measured frame pktInfo) last started ipFits tcpFits with
    ⟨direction, directs⟩
  refine ⟨memory, last, started, direction, convertsIp, convertsTcp, lengths, starts, directs, ?_⟩
  have offset : thOffx2.offset = 12 := rfl
  have sameByte : last.getD (tcpStart frame + thOffx2.offset) 0 =
      frame.getD (tcpStart frame + thOffx2.offset) 0 := by
    rw [List.getD_eq_getElem?_getD, List.getD_eq_getElem?_getD, keptTcp, keptIp _ (by omega)]
  have readOffset : fieldAt last (tcpStart frame) thOffx2 =
      .ok (frame.getD (tcpStart frame + thOffx2.offset) 0).toNat := by
    rw [← sameByte]
    exact fieldAt_byte rfl (by omega)
  rw [sliceFrame_eq pktInfo session (by omega) long, Fallible.bind_ok convertsIp]
  simp only
  unfold located at starts
  rw [Fallible.bind_ok convertsTcp, Fallible.bind_ok starts, Fallible.bind_ok readOffset]
  cases Nat.lt_or_ge (tcpWords frame) 5 with
  | inl short =>
      have small : tcpWords frame * 4 < 20 := by omega
      rw [if_pos short]
      exact if_pos small
  | inr large =>
      have notSmall : ¬ tcpWords frame * 4 < 20 := by omega
      rw [if_neg (Nat.not_lt_of_le large)]
      exact (if_neg notSmall).trans (Fallible.bind_ok directs _)

theorem sliceFrame_captured (long : 3 ≤ ipWords frame)
    (captured : tcpStart frame + 20 ≤ frame.length) :
    ∃ sliced, sliceFrame frame pktInfo session = .ok sliced ∧
      (tcpWords frame < 5 → sliced.payload = none) ∧
      (5 ≤ tcpWords frame → sliced.payload = some (payloadStart frame) ∧
        sliced.pktInfo.ethernet = 0 ∧ sliced.pktInfo.ip = sniffSizeEthernet ∧
        sliced.pktInfo.tcp = tcpStart frame ∧ sliced.pktInfo.payload = payloadStart frame ∧
        sliced.pktInfo.len = pktInfo.len - UInt16.ofNat (payloadStart frame)) := by
  rcases sliceFrame_converted pktInfo session long captured with
    ⟨memory, last, started, direction, _, _, _, _, _, slices⟩
  refine ⟨_, slices, ?_, ?_⟩
  · intro short
    rw [if_pos short]
  · intro large
    rw [if_neg (Nat.not_lt_of_le large)]
    exact ⟨rfl, rfl, rfl, rfl, rfl, rfl⟩

theorem length_left (captured start : ℕ) :
    start + (UInt16.ofNat captured - UInt16.ofNat start).toNat = captured ↔
      start ≤ captured ∧ captured - start < 65536 := by
  rw [UInt16.toNat_sub, UInt16.toNat_ofNat', UInt16.toNat_ofNat']
  constructor
  · intro same
    omega
  · rintro ⟨inside, fits⟩
    omega

end Frame

/-! ## Every frame -/

theorem readPacket_eq_ok {pktInfo : PktInfo} {frame : List UInt8} {session : TcpSession}
    {sliced : Sliced} :
    readPacket pktInfo frame session = .ok (some sliced) ↔
      sliceFrame frame { pktInfo with len := UInt16.ofNat frame.length } session = .ok sliced := by
  rw [readPacket, slicePacket]
  cases sliceFrame frame { pktInfo with len := UInt16.ofNat frame.length } session with
  | error fault =>
      constructor
      · nofun
      · nofun
  | ok other =>
      constructor
      · intro same
        cases same
        rfl
      · intro same
        cases same
        rfl

theorem refusedOrCarved_captured {pktInfo : PktInfo} {frame : List UInt8}
    (session : TcpSession) (long : 3 ≤ ipWords frame)
    (captured : tcpStart frame + 20 ≤ frame.length) :
    RefusedOrCarved pktInfo frame session ↔
      tcpWords frame < 5 ∨ 5 ≤ ipWords frame ∧ payloadStart frame ≤ frame.length ∧
        frame.length - payloadStart frame < 65536 := by
  simp only [RefusedOrCarved, readPacket_eq_ok]
  rcases sliceFrame_captured { pktInfo with len := UInt16.ofNat frame.length } session long captured
    with ⟨sliced, slices, refused, carved⟩
  rw [slices]
  cases Nat.lt_or_ge (tcpWords frame) 5 with
  | inl short =>
      apply iff_of_true
      · refine ⟨sliced, rfl, ?_⟩
        rw [refused short]
        nofun
      · exact .inl short
  | inr large =>
      rcases carved large with ⟨returned, ethernet, ip, tcp, start, len⟩
      have left := length_left frame.length (payloadStart frame)
      rw [← len] at left
      constructor
      · rintro ⟨_, same, right⟩
        cases same
        have all := right _ returned
        have header := all.ipHeader
        exact .inr ⟨by omega, left.mp all.length⟩
      · rintro (short | ⟨ipLong, inside, fits⟩)
        · omega
        · refine ⟨sliced, rfl, ?_⟩
          intro payload same
          rw [returned] at same
          cases same
          exact {
            ethernet := ethernet
            ip := ip
            tcp := by rw [tcp, ip, tcpStart]
            start := by rw [start, tcp, payloadStart]
            returned := start.symm
            ipHeader := by omega
            tcpHeader := by omega
            inside := inside
            length := left.mpr ⟨inside, fits⟩ }

/-- A frame is refused or carved exactly if it is carvable, whatever the session and the
variable `pkt_info` hold. -/
theorem refusedOrCarved_iff_carvable (pktInfo : PktInfo) (frame : List UInt8)
    (session : TcpSession) :
    RefusedOrCarved pktInfo frame session ↔ Carvable frame := by
  cases Nat.lt_or_ge sniffSizeEthernet frame.length with
  | inr short =>
      apply iff_of_false
      · rintro ⟨sliced, slices, _⟩
        rcases sliceFrame_empty _ session short with ⟨fault, failed⟩
        rw [readPacket_eq_ok, failed] at slices
        cases slices
      · rintro ⟨captured, _⟩
        omega
  | inl captured =>
      cases Nat.lt_or_ge (ipWords frame) 3 with
      | inl short =>
          apply iff_of_true
          · rcases sliceFrame_refused { pktInfo with len := UInt16.ofNat frame.length } session
              captured short with ⟨sliced, slices, refused, _⟩
            refine ⟨sliced, readPacket_eq_ok.mpr slices, ?_⟩
            rw [refused]
            nofun
          · exact ⟨captured, .inl short⟩
      | inr long =>
          cases Nat.lt_or_ge frame.length (tcpStart frame + 20) with
          | inl short =>
              apply iff_of_false
              · rintro ⟨sliced, slices, _⟩
                rcases sliceFrame_truncated _ session captured long short with ⟨fault, failed⟩
                rw [readPacket_eq_ok, failed] at slices
                cases slices
              · rintro ⟨_, tooShort | ⟨fits, _⟩⟩
                · omega
                · omega
          | inr fits =>
              rw [refusedOrCarved_captured session long fits, Carvable]
              constructor
              · intro right
                exact ⟨captured, .inr ⟨fits, right⟩⟩
              · rintro ⟨_, tooShort | ⟨_, right⟩⟩
                · omega
                · exact right

/-- A frame of 46 bytes in which the IP header has three words: its addresses are where
the TCP header is. -/
def shortHeaderFrame : List UInt8 :=
  List.replicate 14 0 ++ 0x43 :: List.replicate 23 0 ++ 0x50 :: List.replicate 7 0

theorem not_refusedOrCarved_shortHeader :
    ¬ RefusedOrCarved ⟨0, 0, 0, 0, 0, 0⟩ shortHeaderFrame ⟨0, 0, 0, 0, 0⟩ := by
  rintro ⟨sliced, slices, right⟩
  cases slices
  have header := (right 46 rfl).ipHeader
  exact absurd header (by decide)

end Lctools.Network
