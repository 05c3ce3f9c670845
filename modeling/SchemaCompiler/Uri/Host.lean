import SchemaCompiler.Uri.Domain
import SchemaCompiler.Uri.Fault
import SchemaCompiler.Uri.Ipv4
import SchemaCompiler.Uri.Ipv6
import SchemaCompiler.Uri.Percent

/-!
# Hosts

The host of a URI in canonical text: a domain name, an IPv4 address, an IPv6 address between
brackets, or, for schemes that give hosts no meaning of their own, any text.
-/

namespace SchemaCompiler.Uri.Host

/-- The text between brackets, if a host starts with one. -/
def bracketed? : List Char → Option (Except Fault (List Char))
  | '[' :: rest =>
    match rest.getLast? with
    | some ']' =>
      match Ipv6.parse? rest.dropLast with
      | some pieces => some (.ok ('[' :: (Ipv6.text pieces ++ [']'])))
      | none => some (.error .invalidIpv6)
    | _ => some (.error .invalidIpv6)
  | _ => none

/-- The canonical text of a host that names a machine. -/
def canonical (cs : List Char) : Except Fault (List Char) :=
  match bracketed? cs with
  | some result => result
  | none =>
    match (percentDecode? cs).bind Domain.toAscii? with
    | none => .error .invalidDomain
    | some [] => .error .emptyHost
    | some domain =>
      if Ipv4.endsInNumber domain then
        match Ipv4.parse? domain with
        | some address => .ok (Ipv4.text address)
        | none => .error .invalidIpv4
      else .ok domain

/-- A character that a host without meaning of its own cannot hold. -/
def isForbiddenOpaque (c : Char) : Bool :=
  [Char.ofNat 0, '\t', '\n', '\r', ' ', '#', '/', ':', '<', '>', '?', '@', '[', '\\', ']', '^',
    '|'].contains c

/-- The text of a host without meaning of its own. -/
def verbatim (cs : List Char) : Except Fault (List Char) :=
  match bracketed? cs with
  | some result => result
  | none =>
    if cs.any isForbiddenOpaque then .error .invalidHostCharacter
    else .ok (percentEncode isControl cs)

end SchemaCompiler.Uri.Host
