import Lctools.Foundation.Fallible
import Lctools.Foundation.Numerals

/-! # `utils/write_packet/write_single_packet.c`

One packet is written to a new file through the pcap library. A dumper is the list of
what `pcap_dump` was given for it.
-/

namespace Lctools.Pcap

open Numerals

/-! ## The program -/

structure PcapPkthdr where
  tvSec : ℤ
  tvUsec : ℤ
  caplen : ℤ
  len : ℤ
  deriving DecidableEq, Repr

/-- `pcap_dumper_t`, with the packets that went into its file. -/
structure PcapDumper where
  path : List Char
  packets : List (PcapPkthdr × List UInt8)
  deriving DecidableEq, Repr

inductive Fault where
  /-- `caplen` bytes were read from a packet that has only `size`. -/
  | overread (caplen : ℤ) (size : ℕ)
  deriving DecidableEq, Repr

def fatalPath : List Char := "/var/log/iridium/iridium_analysis_fatal.pcap".toList

def pcapDump (pdumper : PcapDumper) (hdr : PcapPkthdr) (data : List UInt8) :
    Except Fault PcapDumper :=
  if hdr.caplen ≤ data.length then
    .ok { pdumper with packets := pdumper.packets ++ [(hdr, data.take hdr.caplen.toNat)] }
  else
    .error (.overread hdr.caplen data.length)

/-- `init_pcap_handler`; which files `pcap_dump_open` can open is up to the system. -/
def initPcapHandler (opens : List Char → Bool) (path : List Char) : Option PcapDumper :=
  if opens path then some ⟨path, []⟩ else none

/-- The header that `iridium_write_pcap_single` makes. Both parts of `ts` are `long`. -/
def iridiumHeader (ts : UInt64) (len : ℤ) : PcapPkthdr where
  tvSec := wrapSigned 64 (ts / 100000000).toNat
  tvUsec := wrapSigned 64 (ts / 100).toNat
  caplen := wrapUnsigned 32 len
  len := wrapUnsigned 32 len

def iridiumWritePcapSingle (pdumper : PcapDumper) (ts : UInt64) (dataBuf : List UInt8) (len : ℤ) :
    Except Fault PcapDumper :=
  pcapDump pdumper (iridiumHeader ts len) dataBuf

/-- `write_this_packet`: what it returns, and the file that it leaves. -/
def writeThisPacket (opens : List Char → Bool) (ts : UInt64) (dataBuf : Option (List UInt8))
    (len : ℤ) : Except Fault (ℤ × Option PcapDumper) :=
  match dataBuf with
  | none => .ok (-1, none)
  | some dataBuf =>
      if len ≤ 0 then .ok (-1, none)
      else
        match initPcapHandler opens fatalPath with
        | none => .ok (-2, none)
        | some pdumper => do
            let pdumper ← iridiumWritePcapSingle pdumper ts dataBuf len
            .ok (0, some pdumper)

/-! ## What a header says -/

/-- The time of a header in the file, which keeps 32 bits of each part, in microseconds. -/
def savedTime (hdr : PcapPkthdr) : ℤ :=
  wrapSigned 32 hdr.tvSec * 1000000 + wrapSigned 32 hdr.tvUsec

def Before (first second : PcapPkthdr) : Prop :=
  first.tvSec < second.tvSec ∨ first.tvSec = second.tvSec ∧ first.tvUsec ≤ second.tvUsec

/-- The header has the time `ts`, in units of 10 ns, split into seconds and microseconds. -/
structure Splits (ts : UInt64) (hdr : PcapPkthdr) : Prop where
  nonneg : 0 ≤ hdr.tvUsec
  small : hdr.tvUsec < 1000000
  whole : hdr.tvSec * 1000000 + hdr.tvUsec = (ts.toNat / 100 : ℕ)
  ordered : ∀ (later : UInt64) (len : ℤ), ts ≤ later → Before hdr (iridiumHeader later len)
  recovered : savedTime hdr = (ts.toNat / 100 : ℕ)

theorem wrapSigned_quotient {ts divisor : UInt64} {number : ℕ} (value : divisor.toNat = number)
    (large : 2 ≤ number) : wrapSigned 64 (ts / divisor).toNat = (ts.toNat / number : ℕ) := by
  have bound := ts.toNat_lt
  have halved : ts.toNat / number ≤ ts.toNat / 2 := Nat.div_le_div_left large (by omega)
  rw [UInt64.toNat_div, value]
  exact wrapSigned_of_small 63 (Int.natCast_nonneg _) (by omega)

theorem iridiumHeader_tvSec (ts : UInt64) (len : ℤ) :
    (iridiumHeader ts len).tvSec = (ts.toNat / 100000000 : ℕ) := by
  have quotient : wrapSigned 64 (ts / 100000000).toNat = (ts.toNat / 100000000 : ℕ) :=
    wrapSigned_quotient (by simp) (by decide)
  rw [iridiumHeader, quotient]

theorem iridiumHeader_tvUsec (ts : UInt64) (len : ℤ) :
    (iridiumHeader ts len).tvUsec = (ts.toNat / 100 : ℕ) := by
  have quotient : wrapSigned 64 (ts / 100).toNat = (ts.toNat / 100 : ℕ) :=
    wrapSigned_quotient (by simp) (by decide)
  rw [iridiumHeader, quotient]

/-- `tv_usec` has the whole time, so only times of less than a second are split. -/
theorem splits_iff (ts : UInt64) (len : ℤ) :
    Splits ts (iridiumHeader ts len) ↔ ts.toNat < 100000000 := by
  have seconds := iridiumHeader_tvSec ts len
  have micros := iridiumHeader_tvUsec ts len
  constructor
  · intro splits
    have small := splits.small
    omega
  · intro short
    have zero : (iridiumHeader ts len).tvSec = 0 := by omega
    refine ⟨by omega, by omega, by omega, ?_, ?_⟩
    · intro later other notEarlier
      have order : ts.toNat ≤ later.toNat := UInt64.le_iff_toNat_le.mp notEarlier
      have laterSeconds := iridiumHeader_tvSec later other
      have laterMicros := iridiumHeader_tvUsec later other
      unfold Before
      omega
    · have keptSeconds : wrapSigned 32 (iridiumHeader ts len).tvSec = (iridiumHeader ts len).tvSec :=
        wrapSigned_of_small 31 (by omega) (by omega)
      have keptMicros : wrapSigned 32 (iridiumHeader ts len).tvUsec =
          (iridiumHeader ts len).tvUsec :=
        wrapSigned_of_small 31 (by omega) (by omega)
      rw [savedTime, keptSeconds, keptMicros]
      omega

/-- `write_this_packet` writes one header, and its time is split exactly if it is less
than a second. -/
theorem writeThisPacket_splits_iff (opens : List Char → Bool) (ts : UInt64)
    (dataBuf : List UInt8) (len : ℤ) (opened : opens fatalPath = true) (positive : 0 < len)
    (there : len ≤ dataBuf.length) :
    ∃ hdr packet, writeThisPacket opens ts (some dataBuf) len =
        .ok (0, some ⟨fatalPath, [(hdr, packet)]⟩) ∧
      (Splits ts hdr ↔ ts.toNat < 100000000) := by
  have caplen : (iridiumHeader ts len).caplen ≤ dataBuf.length := by
    have shorter : len % 2 ^ 32 ≤ len := by omega
    exact shorter.trans there
  have written : iridiumWritePcapSingle ⟨fatalPath, []⟩ ts dataBuf len =
      .ok ⟨fatalPath, [(iridiumHeader ts len, dataBuf.take (iridiumHeader ts len).caplen.toNat)]⟩ :=
    if_pos caplen
  refine ⟨iridiumHeader ts len, dataBuf.take (iridiumHeader ts len).caplen.toNat, ?_,
    splits_iff ts len⟩
  rw [writeThisPacket, if_neg (not_le_of_gt positive), initPcapHandler, if_pos opened]
  exact Fallible.bind_ok written _

theorem writeThisPacket_splits_half_second :
    ∃ hdr packet, writeThisPacket (fun _ => true) 50000000 (some [1, 2, 3]) 3 =
        .ok (0, some ⟨fatalPath, [(hdr, packet)]⟩) ∧ Splits 50000000 hdr := by
  rcases writeThisPacket_splits_iff (fun _ => true) 50000000 [1, 2, 3] 3 rfl (by decide)
    (by decide) with ⟨hdr, packet, written, splits⟩
  exact ⟨hdr, packet, written, splits.mpr (by decide)⟩

/-- One second is written as one second and a million microseconds. -/
theorem writeThisPacket_one_second :
    ∃ hdr packet, writeThisPacket (fun _ => true) 100000000 (some [1, 2, 3]) 3 =
        .ok (0, some ⟨fatalPath, [(hdr, packet)]⟩) ∧
      hdr.tvSec = 1 ∧ hdr.tvUsec = 1000000 ∧ ¬Splits 100000000 hdr := by
  have written : writeThisPacket (fun _ => true) 100000000 (some [1, 2, 3]) 3 =
      .ok (0, some ⟨fatalPath, [(⟨1, 1000000, 3, 3⟩, [1, 2, 3])]⟩) := by
    decide +kernel
  refine ⟨⟨1, 1000000, 3, 3⟩, [1, 2, 3], written, rfl, rfl, ?_⟩
  intro splits
  exact absurd splits.small (by decide)

end Lctools.Pcap
