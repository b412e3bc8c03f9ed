import Fabric.Device.Basic

/-!
# Digests

A digest is a 64-bit number computed from a row of bytes: for each byte, the digest so far is
combined with the byte by exclusive or and multiplied by a fixed prime, modulo the word. Two
devices with different digests differ; equal digests are strong evidence that they agree.

Words are fed as four bytes, lowest first, and text as its UTF-8 bytes.
-/

namespace Fabric

/-- A digest of the bytes fed so far. -/
structure Digest where
  value : UInt64
  deriving DecidableEq, Inhabited, Repr

namespace Digest

/-- The digest of no bytes. -/
def empty : Digest := ⟨0xcbf29ce484222325⟩

/-- Feeds a byte. -/
def byte (d : Digest) (b : UInt8) : Digest := ⟨(d.value ^^^ b.toUInt64) * 0x100000001b3⟩

/-- Feeds a word, lowest byte first. -/
def word (d : Digest) (w : UInt32) : Digest :=
  (((d.byte w.toUInt8).byte (w >>> 8).toUInt8).byte (w >>> 16).toUInt8).byte (w >>> 24).toUInt8

/-- Feeds a number as a word. -/
def nat (d : Digest) (n : Nat) : Digest := d.word n.toUInt32

/-- Feeds the bytes of a text. -/
def text (d : Digest) (s : String) : Digest := s.toUTF8.foldl byte d

/-- Feeds a number of nodes and the nodes. -/
def nodes (d : Digest) (ns : List Node) : Digest :=
  ns.foldl (fun d n => d.word n.raw) (d.nat ns.length)

end Digest

/-- The digest of multiplexers: the destination and the sources of each. -/
def Digest.ofMuxes (muxes : List Mux) : Digest :=
  muxes.foldl (fun d mux => (d.word mux.dst.raw).nodes mux.sources) .empty

namespace Device

/-- Feeds a wire with its name, neighbours, site pins and flags. -/
def wireDigest (d : Device) (digest : Digest) (w : Wire) : Digest :=
  let info := (d.wires.get? w).getD {}
  let digest := (digest.word w.raw).text (d.nameOf info.name)
  let digest := (digest.nodes info.uphill.toList).nodes info.downhill.toList
  let pin (digest : Digest) (p : BelPin) : Digest :=
    ((digest.word p.bel.pos.raw).nat p.bel.z.toNat).text (d.nameOf p.pin)
  (info.belPins.foldl pin (digest.nat info.belPins.size)).word info.flags.toUInt32

/-- The digest of all wires of a device, in order. -/
def digest (d : Device) : Digest := d.wires.wires.foldl d.wireDigest .empty

end Device

end Fabric
