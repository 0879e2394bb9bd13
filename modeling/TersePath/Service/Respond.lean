import TersePath.Document
import TersePath.Run.Deviation
import TersePath.Service.Payload

namespace TersePath.Service

structure Overrides where
  maxDecimalPlaces : Option Nat
  devmode : Option Bool

def Overrides.config (overrides : Overrides) : Config :=
  { maxDecimalPlaces := overrides.maxDecimalPlaces.getD 2, devmode := overrides.devmode.getD false }

structure PathRequest where
  d : List Char
  overrides : Overrides
  element : Option Element
  verify : Bool

structure DocumentRequest where
  svg : List Char
  overrides : Overrides

structure PathResponse where
  d : List Char
  scale : Nat
  rescaled : Bool
  sourceLength : Nat
  resultLength : Nat
  attributes : Attributes
  maxDeviation : Option Float

inductive Response where
  | health (passes : Nat) (version : String)
  | path (response : PathResponse)
  | document (svg : List Char) (count : Nat)
  | detail (status : Nat) (reason : String)
  /-- The request does not fit; the places of what does not. -/
  | invalid (places : List String)
  | failure

open Payload in
def readOverrides (fields : List (String × Payload)) : Checked Overrides :=
  (Checked.both
    (fieldOr fields "body" "max_decimal_places" none fun place => asOptional (asCount place))
    (fieldOr fields "body" "devmode" none fun place => asOptional (asTruth place))).map
    fun (maxDecimalPlaces, devmode) => ⟨maxDecimalPlaces, devmode⟩

open Payload in
def readPathRequest : Payload → Checked PathRequest
  | .object fields =>
    (Checked.both (fieldOr fields "body" "d" "" asText)
      (Checked.both (readOverrides fields)
        (Checked.both
          (fieldOr fields "body" "element" none fun place => asOptional (asElement place))
          (fieldOr fields "body" "verify" false asTruth)))).map
      fun (d, overrides, element, verify) => ⟨d.toList, overrides, element, verify⟩
  | _ => misfit "body"

open Payload in
def readDocumentRequest : Payload → Checked DocumentRequest
  | .object fields =>
    (Checked.both ((fields.lookup "svg").elim (misfit "body.svg") (asText "body.svg"))
      (readOverrides fields)).map fun (svg, overrides) => ⟨svg.toList, overrides⟩
  | _ => misfit "body"

/-- The response to a fault: what the request says is refused, all else is a failure. -/
def faultResponse : Fault → Response
  | .path fault => .detail 422 fault.message
  | .malformedDocument => .detail 422 Fault.malformedDocument.message
  | _ => .failure

def finite? (distance : Float) : Option Float := if distance.isFinite then some distance else none

def optimizePath (request : PathRequest) : Response :=
  match optimize request.d request.overrides.config request.element with
  | (_, some fault) => faultResponse fault
  | (run, none) =>
    let response : PathResponse := {
      d := run.output
      scale := run.scale
      rescaled := run.rescaled
      sourceLength := request.d.length
      resultLength := run.output.length
      attributes := (run.element.map Element.attributes).getD {}
      maxDeviation := none }
    if request.verify && run.hasFiniteOperands then
      match run.deviation with
      | .ok distance => .path { response with maxDeviation := finite? distance }
      | .error fault => if fault.isUnsampleable then .path response else .failure
    else .path response

def optimizeSvg (request : DocumentRequest) : Response :=
  match optimizeDocument request.overrides.config request.svg with
  | .error fault => faultResponse fault
  | .ok (svg, count) => .document svg count

def serve {α : Type} (read : Payload → Checked α) (answer : α → Response) (body : Payload) : Response :=
  match read body with
  | .error places => .invalid (places.mergeSort fun a b => a ≤ b)
  | .ok request => answer request

def unescape : List Char → List Char
  | [] => []
  | '%' :: a :: b :: rest =>
    match hexDigit? a, hexDigit? b with
    | some high, some low =>
      if high < 8 then Char.ofNat (16 * high + low) :: unescape rest else '%' :: unescape (a :: b :: rest)
    | _, _ => '%' :: unescape (a :: b :: rest)
  | c :: rest => c :: unescape rest

/-- Segments of a path after those that are kept, the last one first. A single dot names the place
where it stands and a double one the place above. -/
def withoutDots : (kept : List String) → List String → List String
  | kept, [] => kept.reverse
  | kept, segment :: rest =>
    if segment = "." then withoutDots kept rest
    else if segment = ".." then withoutDots (kept.drop 1) rest
    else withoutDots (segment :: kept) rest

/-- The path that a target names: without query and fragment, with one slash in front and none at its
end. -/
def barePath (target : String) : String :=
  let path := String.ofList (target.toList.takeWhile fun c => c != '?' && c != '#')
  let path := unescape ("/".intercalate (withoutDots [] (path.splitOn "/"))).toList
  let path := (path.reverse.dropWhile (· == '/')).reverse.dropWhile (· == '/')
  String.ofList ('/' :: path)

/-- The response to a request; one without a body asks for the state of the service. -/
def respond (target : String) (body : Option Payload) : Response :=
  match barePath target, body with
  | "/api/health", none => .health Registry.standard.size "0.1.0"
  | "/api/optimize", some body => serve readPathRequest optimizePath body
  | "/api/optimize-svg", some body => serve readDocumentRequest optimizeSvg body
  | "/api/health", some _ => .detail 405 "Method Not Allowed"
  | "/api/optimize", none => .detail 405 "Method Not Allowed"
  | "/api/optimize-svg", none => .detail 405 "Method Not Allowed"
  | _, _ => .detail 404 "Not Found"

end TersePath.Service
