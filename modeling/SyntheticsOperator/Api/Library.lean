import Mathlib.Data.Rat.Defs

/-!
# Library functions

The functions of the standard library and of the Kubernetes and DNS libraries that the
webhooks and the probes both call.  Where a result depends on what one of them does, it
says so in a hypothesis.
-/

namespace SyntheticsOperator.Api

/-- The part of `*url.URL` that is read. -/
structure ParsedURL where
  scheme : String
  host : String
deriving DecidableEq

/-- `F` is `float64`.  `none`, and `false` of a test, is an error or a nil result. -/
structure Library (F : Type) where
  /-- `url.Parse` -/
  parseURL : String → Option ParsedURL
  /-- `net.SplitHostPort` -/
  splitHostPort : String → Option (String × String)
  /-- `net.ParseIP(s) != nil` -/
  parseIP : String → Bool
  /-- `x509.NewCertPool().AppendCertsFromPEM` -/
  appendCertsFromPEM : String → Bool
  /-- `validation.IsDNS1123Subdomain`, which returns its complaints -/
  isDNS1123Subdomain : String → List String
  /-- `validation.IsConfigMapKey` -/
  isConfigMapKey : String → List String
  /-- `strings.ToUpper` -/
  toUpper : String → String
  /-- `dns.StringToType` -/
  stringToType : String → Option Nat
  /-- `dns.TypeToString`, empty for a type that is not in the table -/
  typeToString : Nat → String
  /-- `strconv.ParseFloat` for 64 bits -/
  parseFloat : String → Except String F
  /-- the conversion to `float64` -/
  float64 : ℚ → F

/-- The record types that probes query, with their numbers. -/
def recordTypes : List (String × Nat) :=
  [("A", 1), ("NS", 2), ("CNAME", 5), ("PTR", 12), ("MX", 15), ("TXT", 16), ("AAAA", 28)]

/-- A library that is right about a few fixed texts, for running the model: one URL,
two addresses, ASCII letters and whole names. -/
def Library.sample : Library ℚ where
  parseURL s := if s = "https://example.com/health" then some ⟨"https", "example.com"⟩ else none
  splitHostPort s :=
    if s = "8.8.8.8:53" then some ("8.8.8.8", "53")
    else if s = "127.0.0.1:53" then some ("127.0.0.1", "53")
    else none
  parseIP s := s = "127.0.0.1"
  appendCertsFromPEM _ := false
  isDNS1123Subdomain s := if s = "example.com" then [] else ["must be a lowercase name"]
  isConfigMapKey s := if s = "token" then [] else ["must be a key"]
  toUpper s := String.ofList (s.toList.map Char.toUpper)
  stringToType s := recordTypes.lookup s
  typeToString n := ((recordTypes.find? fun (_, m) => m = n).map Prod.fst).getD ""
  parseFloat s := (s.toInt?.map fun n => .ok (n : ℚ)).getD (.error "invalid syntax")
  float64 q := q

end SyntheticsOperator.Api
