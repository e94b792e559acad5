import VoxelScout.Json
import VoxelScout.Text.Case

/-! # Requests and responses

A request has a method, a target (a path, and after a question mark a query), and perhaps
a body of some type, from which any compression has been taken; other headers make no
difference. A response has a status and either a document or a text.
-/

namespace VoxelScout.Api

structure Request where
  method : String
  target : String
  /-- The type of the body, as it is named in the request. -/
  contentType : String
  body : List UInt8
  deriving DecidableEq, Repr

inductive Encoding where
  | form
  | multipart
  | xml
  deriving DecidableEq, Repr

inductive Format where
  | json
  | other (encoding : Encoding)
  deriving DecidableEq, Repr

inductive Body where
  | json (document : Json)
  | text (content : String)

structure Response where
  status : Nat
  body : Body

namespace Request

def splitSlashes : List Char → Option (List Char × List Char)
  | '/' :: '/' :: rest => some ([], rest)
  | c :: rest => (splitSlashes rest).map fun (front, back) => (c :: front, back)
  | [] => none

def hasScheme : List Char → Bool
  | ':' :: '/' :: '/' :: _ => true
  | _ :: rest => hasScheme rest
  | [] => false

/-- The target from its path on. A target with a scheme names its host behind the first two
slashes, unless another slash stands before them; the path of one that names nothing else
is the root. -/
def originForm (r : Request) : List Char :=
  let target := r.target.toList
  match splitSlashes target with
  | some (scheme, rest) =>
    if hasScheme target && !scheme.contains '/' then
      match rest.dropWhile fun c => c != '/' && c != '?' && c != '#' with
      | [] => ['/']
      | path => path
    else target
  | none => target

def path (r : Request) : List Char :=
  r.originForm.takeWhile fun c => c != '?' && c != '#'

def query (r : Request) : List Char :=
  match r.originForm.dropWhile fun c => c != '?' && c != '#' with
  | '?' :: rest => rest.takeWhile (· != '#')
  | _ => []

def splitAt (separator : Char) : List Char → List (List Char)
  | [] => [[]]
  | c :: rest =>
    match splitAt separator rest with
    | part :: parts => if c == separator then [] :: part :: parts else (c :: part) :: parts
    | [] => [[c]]

/-- The bytes that a part of a query means: `+` is a blank, and a percent sign before two
hexadecimal digits is the byte of that number. What has no room for digits stays as it is. -/
def unquote : List Char → List UInt8
  | [] => []
  | '+' :: rest => 0x20 :: unquote rest
  | '%' :: a :: b :: rest =>
    match Text.hexValue? a, Text.hexValue? b with
    | some hi, some lo => UInt8.ofNat (16 * hi + lo) :: unquote rest
    | _, _ => 0x25 :: unquote (a :: b :: rest)
  | '%' :: rest => Text.spell (Text.chars ('%' :: rest))
  | c :: rest => String.utf8EncodeChar c ++ unquote rest

/-- The value of the first part of the query with a name; empty when there is none. -/
def parameter (r : Request) (name : String) : String :=
  let pairs := (splitAt '&' r.query).map fun part =>
    (Text.ofBytes (unquote (part.takeWhile (· != '='))),
      Text.ofBytes (unquote ((part.dropWhile (· != '=')).drop 1)))
  ((pairs.find? fun p => p.1 == name).map (·.2)).getD ""

/-- The type of the body with what stands between its slash and a plus sign left out, so
that `application/vnd.x+json` is `application/json`. -/
def plainType (type : List Char) : List Char :=
  match type.dropWhile (· != '+') with
  | [] => type
  | _ :: suffix =>
    let front := type.takeWhile (· != '+')
    if front.contains ';' then type.takeWhile (· != ';')
    else if !type.contains '/' then type
    else type.takeWhile (· != '/') ++ '/' :: suffix.takeWhile (· != ';')

def trimmed (cs : List Char) : List Char :=
  let isBlank := fun c => c == ' ' || c == '\t' || c == '\n' || c == '\r'
  ((cs.dropWhile isBlank).reverse.dropWhile isBlank).reverse

/-- How the body is written, by what stands before a semicolon in its type. -/
def format? (r : Request) : Option Format :=
  let plain := plainType ((trimmed r.contentType.toList).map Text.lowerAscii)
  let type := plain.takeWhile (· != ';')
  if "json".toList.isSuffixOf type then some .json
  else if "application/x-www-form-urlencoded".toList.isPrefixOf type then some (.other .form)
  else if "multipart/form-data".toList.isPrefixOf type then some (.other .multipart)
  else if "text/xml".toList.isPrefixOf type || "application/xml".toList.isPrefixOf type then
    some (.other .xml)
  else none

def decode? {α : Type} (r : Request) (ofJson : Json → Option α)
    (ofOther : Encoding → Request → Option α) : Option α :=
  match r.format? with
  | some .json => (Json.parse? r.body).bind ofJson
  | some (.other encoding) => ofOther encoding r
  | none => none

end Request

namespace Response

/-- A response with a document; one that cannot be written is an internal failure. -/
def ofJson [Json.Diagnostics] (status : Nat) (document : Json) : Response :=
  match document.write? with
  | some _ => ⟨status, .json document⟩
  | none => ⟨500, .text (Json.Diagnostics.unwritable document)⟩

def headerOnly (r : Response) : Response :=
  { r with body := .text "" }

end Response

end VoxelScout.Api
