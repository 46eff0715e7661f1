import SyntheticsOperator.Probes.Executors

/-!
# The header of an outgoing request

The loop of `executeRequest` that copies the headers of the probe into the request.  It
ranges over a Go map, so the order is any order of the entries.
-/

namespace SyntheticsOperator.Probes

open SyntheticsOperator.Results (StringMap)

/-- The first letter and every letter after a hyphen in upper case, the others in lower
case. -/
def canonicalChars : Bool → List Char → List Char
  | _, [] => []
  | upper, c :: rest =>
      (if upper then c.toUpper else c.toLower) :: canonicalChars (c == '-') rest

/-- `textproto.CanonicalMIMEHeaderKey`: a name with a character that no header name can
have is left as it is. -/
def canonicalMIMEHeaderKey (name : String) : String :=
  if name.toList.all isTokenChar then String.ofList (canonicalChars true name.toList) else name

abbrev Header := Finmap fun _ : String => List String

/-- `Header.Set` replaces what was there under the canonical name. -/
def Header.set (header : Header) (key value : String) : Header :=
  header.insert (canonicalMIMEHeaderKey key) [value]

/-- The entries of a map in the order in which a loop over it meets them. -/
def Iterates (headers : StringMap) (order : List (Sigma fun _ : String => String)) : Prop :=
  (order : Multiset _) = headers.entries

instance (headers : StringMap) (order : List (Sigma fun _ : String => String)) :
    Decidable (Iterates headers order) :=
  inferInstanceAs (Decidable (_ = _))

def requestHeader (order : List (Sigma fun _ : String => String)) : Header :=
  order.foldl (fun header entry => Header.set header entry.1 entry.2) ∅

end SyntheticsOperator.Probes
