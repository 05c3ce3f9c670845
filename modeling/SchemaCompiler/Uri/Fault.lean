/-!
# Faults of base URIs

Why a text cannot be the base of schema identifiers.
-/

namespace SchemaCompiler.Uri

/-- Why a text is no URI, or none that schemas can be placed under. -/
inductive Fault where
  | relative
  | emptyHost
  | invalidPort
  | invalidIpv4
  | invalidIpv6
  | invalidHostCharacter
  | invalidDomain
  /-- The URI has no hierarchical path. -/
  | opaquePath
  | queryOrFragment
deriving DecidableEq, Repr

/-- The fault in words. -/
def Fault.message : Fault → String
  | relative => "relative URL without a base"
  | emptyHost => "empty host"
  | invalidPort => "invalid port number"
  | invalidIpv4 => "invalid IPv4 address"
  | invalidIpv6 => "invalid IPv6 address"
  | invalidHostCharacter => "invalid domain character"
  | invalidDomain => "invalid international domain name"
  | opaquePath => "URI cannot be used as a base for schema paths"
  | queryOrFragment => "base URI must not carry a query or fragment"

end SchemaCompiler.Uri
