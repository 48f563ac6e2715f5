import TreeShare.Bytes

/-! Where datagrams come from and go to. Only IPv4 endpoints have a form inside message bodies. -/
namespace TreeShare

structure Endpoint where
  ip : Vector UInt8 4
  port : UInt16
deriving DecidableEq, Inhabited

/-- Any address of a datagram socket. The groups of an IPv6 address are 16 bits wide. -/
inductive Address where
  | v4 (endpoint : Endpoint)
  | v6 (groups : Vector UInt16 8) (port : UInt16) (scope : UInt32)
deriving DecidableEq, Inhabited

namespace Address

def endpoint? : Address → Option Endpoint
  | v4 e => some e
  | v6 .. => none

def isV4 (a : Address) : Bool := a.endpoint?.isSome

def port : Address → UInt16
  | v4 e => e.port
  | v6 _ p _ => p

end Address

namespace Endpoint

def toBytes (e : Endpoint) : Bytes :=
  e.ip.toList ++ Bytes.ofNat 2 e.port.toNat

inductive ReadError where
  | ipv6
  | length

def ReadError.message : ReadError → String
  | ipv6 => "IPv6 is not supported"
  | length => "unexpected address length"

/-- Eighteen bytes would be an IPv6 address and a port: they are told apart only to be refused. -/
def ofBytes (b : Bytes) : Except ReadError Endpoint :=
  match b with
  | [i, j, k, l, p, q] => .ok ⟨#v[i, j, k, l], UInt16.ofNat (Bytes.toNat [p, q])⟩
  | b => if b.length = 18 then .error .ipv6 else .error .length

theorem length_toBytes (e : Endpoint) : e.toBytes.length = 6 := by
  simp [toBytes]

theorem ofBytes_toBytes (e : Endpoint) : ofBytes e.toBytes = .ok e := by
  obtain ⟨⟨⟨ip⟩, hip⟩, port⟩ := e
  match ip, hip with
  | [i, j, k, l], _ =>
    have hp : port.toNat < Bytes.capacity 2 := port.toNat_lt
    have hn : Bytes.toNat (Bytes.ofNat 2 port.toNat) = port.toNat := by
      rw [Bytes.toNat_ofNat, Nat.mod_eq_of_lt hp]
    simp only [toBytes, Vector.toList_mk, List.cons_append, List.nil_append]
    simp only [Bytes.ofNat] at hn ⊢
    simp only [ofBytes, hn]
    simp

end Endpoint
end TreeShare
