import Heimdallr.Resolver.Effects

/-!
# DNS64 (`core/resolver/dns64.rs`)

An IPv4 address embedded into an IPv6 prefix of 64 or 96 bits; other lengths give nothing.

`synthesize_one` takes all sixteen octets of the prefix and writes the four of the address over
those at the indices 12 to 15, or 8 to 11, with zeros behind them; bits of the prefix beyond its
length are kept or overwritten with the octet they are in. `synthesize_aaaa` counts what it has
made, so it is a `Net` program.

What the layout is, next to that of RFC 6052, and what an AAAA query is answered is
`Resolver.Dns64Spec`.
-/

namespace Heimdallr.Resolver

open Lib

/-- `Dns64Prefix`. -/
structure Dns64Prefix where
  addr : Ipv6Addr
  len : UInt8
  deriving DecidableEq, Repr

/-- `synthesize_one`. The source also compares the prefix octets with themselves, which never
fails. -/
def synthesizeOne (v4 : Ipv4Addr) (pre : Dns64Prefix) : Option Ipv6Addr :=
  let v6Bytes := pre.addr.octets
  if pre.len = 96 then
    some ⟨(((v6Bytes.set! 12 v4.a).set! 13 v4.b).set! 14 v4.c).set! 15 v4.d⟩
  else if pre.len = 64 then
    let embedded := (((v6Bytes.set! 8 v4.a).set! 9 v4.b).set! 10 v4.c).set! 11 v4.d
    some ⟨(((embedded.set! 12 0).set! 13 0).set! 14 0).set! 15 0⟩
  else none

/-- The addresses `synthesize_aaaa` produces. -/
def synthesized (aRecords : List Ipv4Addr) (pre : Dns64Prefix) : List Ipv6Addr :=
  aRecords.filterMap fun a => synthesizeOne a pre

/-- `synthesize_aaaa`: counts what it produced. -/
def synthesizeAaaa (aRecords : List Ipv4Addr) (pre : Dns64Prefix) : Net (List Ipv6Addr) := do
  let out := synthesized aRecords pre
  if !out.isEmpty then
    incrementGlobal .Dns64SynthesizedTotal out.length
  return out

theorem eval_synthesizeAaaa (aRecords : List Ipv4Addr) (pre : Dns64Prefix) (l : Local) :
    (synthesizeAaaa aRecords pre).eval netAnswer l = (synthesized aRecords pre, l) := by
  unfold synthesizeAaaa
  dsimp only
  split <;> rfl

end Heimdallr.Resolver
