import Mathlib.Tactic.Common
import Mathlib.Data.List.Basic

/-!
# The parts of h3 and http the crates are written against

The data types that cross the boundary to the dependencies: poll results,
HTTP/3 error codes, stream errors, body frames and URIs.  Text rendering of
stream errors and the construction of URIs are not part of the repository;
the class `Http3` carries them, with the documented prefixes as its laws.
-/

namespace TonicH3

inductive Poll (α : Type*)
  | pending
  | ready (a : α)
  deriving DecidableEq, Repr

/-- `hyper::body::Bytes`, and the contents of any `Buf`. -/
abbrev Bytes := List UInt8

abbrev HeaderMap := List (String × String)

inductive Code
  | h3NoError
  | h3InternalError
  | h3RequestCancelled
  deriving DecidableEq, Repr

/-- `h3::error::StreamError`, one constructor for each rendered kind. -/
inductive StreamError
  | streamError (reason : String)
  | remoteReset (reason : String)
  | connectionError (reason : String)
  | headerTooBig (reason : String)
  | remoteClosing
  | undefined (reason : String)
  deriving DecidableEq, Repr

def StreamError.isConnectionLevel : StreamError → Bool
  | .remoteClosing | .connectionError _ => true
  | _ => false

/-- `crate::Error`, a boxed error: an h3 stream error, or any other error
known by its text. -/
inductive Error
  | stream (e : StreamError)
  | other (msg : String)
  deriving DecidableEq, Repr

structure Uri where
  scheme : Option String
  authority : Option String
  pathAndQuery : Option String
  deriving DecidableEq, Repr

def startsWith (s pat : String) : Bool := pat.toList.isPrefixOf s.toList

theorem startsWith_iff {s pat : String} :
    startsWith s pat = true ↔ pat.toList <+: s.toList := by
  simp [startsWith]

theorem startsWith_eq_false {s p q : String} (hp : startsWith s p = true)
    (hpq : ¬ p.toList <+: q.toList) (hqp : ¬ q.toList <+: p.toList) :
    startsWith s q = false := by
  by_contra hq
  have hq' : q.toList <+: s.toList := startsWith_iff.mp (by simpa using hq)
  rcases List.prefix_or_prefix_of_prefix (startsWith_iff.mp hp) hq' with h | h
  · exact hpq h
  · exact hqp h

/-- What the crates rely on from `h3` and `http`: how stream errors are
rendered, with the prefixes documented for h3 0.0.8, and how a URI is built
from its three components. -/
class Http3 where
  display : StreamError → String
  display_remoteClosing :
    startsWith (display .remoteClosing) "Remote is closing the connection" = true
  display_connectionError : ∀ r,
    startsWith (display (.connectionError r)) "Connection error:" = true
  display_streamError : ∀ r, startsWith (display (.streamError r)) "Stream error:" = true
  display_remoteReset : ∀ r, startsWith (display (.remoteReset r)) "Remote reset:" = true
  display_headerTooBig : ∀ r, startsWith (display (.headerTooBig r)) "Header too big:" = true
  display_undefined : ∀ r, startsWith (display (.undefined r)) "Undefined error:" = true
  buildUri : String → String → String → Except Error Uri

@[reducible] def documentedHttp3 : Http3 where
  display
    | .remoteClosing => "Remote is closing the connection"
    | .connectionError r => "Connection error: " ++ r
    | .streamError r => "Stream error: " ++ r
    | .remoteReset r => "Remote reset: " ++ r
    | .headerTooBig r => "Header too big: " ++ r
    | .undefined r => "Undefined error: " ++ r
  display_remoteClosing := by decide
  display_connectionError := by simp [startsWith]
  display_streamError := by simp [startsWith]
  display_remoteReset := by simp [startsWith]
  display_headerTooBig := by simp [startsWith]
  display_undefined := by simp [startsWith]
  buildUri s a p := .ok ⟨some s, some a, some p⟩

/-! ## Bodies -/

inductive Frame
  | data (d : Bytes)
  | trailers (t : HeaderMap)
  deriving DecidableEq, Repr

def remaining (d : Bytes) : ℕ := d.length

def copyToBytes (d : Bytes) (n : ℕ) : Bytes := d.take n

@[simp] theorem copyToBytes_remaining (d : Bytes) : copyToBytes d (remaining d) = d := by
  simp [copyToBytes, remaining]

/-- One unit of what travels on a stream after the headers. -/
inductive WireItem
  | byte (b : UInt8)
  | trailers (t : HeaderMap)
  deriving DecidableEq, Repr

namespace Frame

def items : Frame → List WireItem
  | .data d => d.map .byte
  | .trailers t => [.trailers t]

/-- A message up to re-chunking of its data. -/
def flatten (fs : List Frame) : List WireItem := fs.flatMap items

@[simp] theorem flatten_nil : flatten [] = [] := rfl

@[simp] theorem flatten_append (fs gs : List Frame) :
    flatten (fs ++ gs) = flatten fs ++ flatten gs := by
  simp [flatten]

@[simp] theorem flatten_singleton (f : Frame) : flatten [f] = f.items := by
  simp [flatten]

end Frame

/-- How a body source ends: with `None`, with an error, or not at all. -/
inductive Ending
  | done
  | error (e : Error)
  | never
  deriving DecidableEq, Repr

structure BodyScript where
  frames : List Frame
  ending : Ending
  deriving DecidableEq, Repr

/-- A body source: the frames it has yielded, those it has yet to yield, how it
ends, and whether its end or its error has been returned. -/
structure Body where
  yielded : List Frame
  rest : List Frame
  ending : Ending
  ended : Bool
  deriving DecidableEq, Repr

namespace Body

def new (script : BodyScript) : Body := ⟨[], script.frames, script.ending, false⟩

def script (bd : Body) : BodyScript := ⟨bd.yielded ++ bd.rest, bd.ending⟩

@[simp] theorem script_new (script : BodyScript) : (new script).script = script := rfl

/-- `Body::poll_frame` of a source that is or is not ready to answer. -/
def pollFrame (bd : Body) (ready : Bool) : Poll (Option (Except Error Frame)) × Body :=
  if ready then
    match bd.rest, bd.ending with
    | f :: fs, _ => (.ready (some (.ok f)), { bd with yielded := bd.yielded ++ [f], rest := fs })
    | [], .done => (.ready none, { bd with ended := true })
    | [], .error e => (.ready (some (.error e)), { bd with ended := true })
    | [], .never => (.pending, bd)
  else (.pending, bd)

theorem pollFrame_cases (bd : Body) (ready : Bool) :
    bd.pollFrame ready = (.pending, bd) ∨
    (∃ f fs, bd.rest = f :: fs ∧ bd.pollFrame ready =
      (.ready (some (.ok f)), { bd with yielded := bd.yielded ++ [f], rest := fs })) ∨
    (bd.rest = [] ∧ bd.ending = .done ∧
      bd.pollFrame ready = (.ready none, { bd with ended := true })) ∨
    (∃ e, bd.rest = [] ∧ bd.ending = .error e ∧
      bd.pollFrame ready = (.ready (some (.error e)), { bd with ended := true })) := by
  unfold pollFrame
  split
  · split
    · next f fs hrest => exact .inr (.inl ⟨f, fs, hrest, rfl⟩)
    · next hrest hend => exact .inr (.inr (.inl ⟨hrest, hend, rfl⟩))
    · next e hrest hend => exact .inr (.inr (.inr ⟨e, hrest, hend, rfl⟩))
    · exact .inl rfl
  · exact .inl rfl

end Body

end TonicH3
