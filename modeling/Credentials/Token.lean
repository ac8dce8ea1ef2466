import Credentials.Base64Url
import Credentials.Ed25519
import Credentials.Identity

/-!
# Tokens

A token is three base64url segments between points: a header, a payload and a signature. Header and
payload are objects. The signature is over the canonical bytes of both together as they were decoded,
so the layout of a segment does not matter to it. `signingInput` and `encode` say what these bytes and
the token are, `trySigningInput` and `tryEncode` compute them.
-/

namespace Credentials

inductive TokenSegment where
  | header
  | payload
  | signature
deriving DecidableEq

def TokenSegment.name : TokenSegment → String
  | .header => "header"
  | .payload => "payload"
  | .signature => "signature"

inductive TokenError where
  | segmentCount (found : Nat)
  | notBase64 (segment : TokenSegment)
  | notAnObject (segment : TokenSegment)
  | canonicalization (cause : CanonicalizationError)
deriving DecidableEq

namespace TokenError

def message : TokenError → String
  | .segmentCount n => s!"token must have 3 segments, found {n}"
  | .notBase64 s => s!"{s.name} segment is not valid base64url"
  | .notAnObject s => s!"{s.name} segment is not a JSON object"
  | .canonicalization cause => cause.message

end TokenError

structure Token where
  header : Json.Members
  payload : Json.Members
  /-- bytes of any number -/
  signature : Bytes

namespace Token

def segments (s : String) : List Bytes := Bytes.pieces 0x2e (Bytes.ofText (Text.trim s))

def decodeSegment (name : TokenSegment) (s : Bytes) : Except TokenError Bytes :=
  match Base64Url.decode? s with
  | some b => .ok b
  | none => .error (.notBase64 name)

def decodeObject (name : TokenSegment) (s : Bytes) : Except TokenError Json.Members :=
  match decodeSegment name s with
  | .error e => .error e
  | .ok b =>
    match (Json.parse b).bind Json.asObject? with
    | some ms => .ok ms
    | none => .error (.notAnObject name)

def decode (s : String) : Except TokenError Token :=
  match segments s with
  | [h, p, sig] =>
    match decodeObject .header h with
    | .error e => .error e
    | .ok header =>
      match decodeObject .payload p with
      | .error e => .error e
      | .ok payload =>
        match decodeSegment .signature sig with
        | .error e => .error e
        | .ok signature => .ok ⟨header, payload, signature⟩
  | ss => .error (.segmentCount ss.length)

def headerFor (k : KeyId) : Json.Members :=
  Json.membersOf [("alg", .string signatureAlgorithm), ("typ", .string "JWT"), ("kid", .string k.name)]

/-- The bytes that the signature of a token is over. -/
def signingInput (header payload : Json.Members) : Canonical :=
  .ofJson (.object [("header", .object header), ("payload", .object payload)])

def encode (header payload : Json.Members) (signature : Signature) : String :=
  Base64Url.encode (Canonical.ofJson (.object header)).bytes ++ "."
    ++ Base64Url.encode (Canonical.ofJson (.object payload)).bytes ++ "."
    ++ Base64Url.encode signature.bytes

def canonical (v : Json) : Except TokenError Canonical :=
  (Canonical.ofValue v).mapError .canonicalization

def trySigningInput (header payload : Json.Members) : Except TokenError Canonical :=
  canonical (.object [("header", .object header), ("payload", .object payload)])

def tryEncode (header payload : Json.Members) (signature : Signature) :
    Except TokenError String := do
  let h ← canonical (.object header)
  let p ← canonical (.object payload)
  return Base64Url.encode h.bytes ++ "." ++ Base64Url.encode p.bytes ++ "."
    ++ Base64Url.encode signature.bytes

def keyId? (t : Token) : Option KeyId :=
  ((Json.get? t.header "kid").bind Json.asString?).bind fun s => (KeyId.ofName s).toOption

def algorithm? (t : Token) : Option String := (Json.get? t.header "alg").bind Json.asString?

def signature? (t : Token) : Option Signature := (Signature.ofBytes t.signature).toOption

/-- Whether the token carries the right algorithm and a signature that holds under a key. -/
def isSignedBy (t : Token) (k : PublicKey) : Bool :=
  match t.algorithm?, t.signature? with
  | some a, some s =>
    a = signatureAlgorithm && match trySigningInput t.header t.payload with
      | .error _ => false
      | .ok c => (k.verify c s).isOk
  | _, _ => false

end Token
end Credentials
