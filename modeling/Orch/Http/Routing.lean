import Mathlib.Data.List.Infix

namespace Routing

/-- The methods that routes are registered for. -/
inductive Method where
  | get
  | post
  | delete
deriving DecidableEq

structure Request where
  method : String
  path : String
  header : String → String

/-- One segment of a route: a fixed text, or a parameter in braces. -/
inductive Segment where
  | literal (text : String)
  | param (name : String)
deriving DecidableEq

def segments (path : String) : List String :=
  ((path.toList.splitOn '/').filter (· ≠ [])).map String.ofList

def Segment.ofText (text : String) : Segment :=
  if text.toList.head? = some '{' then .param text else .literal text

def pattern (path : String) : List Segment := (segments path).map .ofText

/-- The fixed texts a route starts with. -/
def stem : List Segment → List String
  | .literal text :: rest => text :: stem rest
  | _ => []

abbrev fold (text : String) : List Char := text.toList.map Char.toLower

abbrev folded (path : List String) : List (List Char) := path.map fold

/-- One of two fixed paths is below the other, but for case. -/
def Comparable (a b : List String) : Prop := folded a <+: folded b ∨ folded b <+: folded a

instance (a b : List String) : Decidable (Comparable a b) := by
  unfold Comparable
  infer_instance

/-- How a library matches requests, of any method, to fixed paths and to routes.
Whether case counts is left open. -/
structure Matching where
  below : List String → Request → Bool
  serves : Method → List Segment → Request → Bool
  below_upto : ∀ {base path req}, base <+: path → below path req = true → below base req = true
  below_comparable : ∀ {a b req}, below a req = true → below b req = true → Comparable a b
  /-- A route takes only requests below its fixed texts. -/
  serves_below : ∀ {method pattern req}, serves method pattern req = true → below (stem pattern) req = true

structure Route (H : Type) where
  method : Method
  pattern : List Segment
  handler : H
deriving DecidableEq

/-- What runs before the handlers of a path and everything below it. -/
structure Middleware where
  base : List String
  lets : Request → Bool

structure Router (H : Type) where
  middlewares : List Middleware
  routes : List (Route H)

inductive Served (H : Type) where
  | refused
  | notFound
  | handled (handler : H)
deriving DecidableEq

section Serving

variable {H : Type} (m : Matching) (router : Router H) (req : Request)

def Route.serves (route : Route H) : Bool := m.serves route.method route.pattern req

def Router.route? : Option (Route H) := router.routes.find? fun route => route.serves m req

def Router.serve : Served H :=
  if router.middlewares.all fun middleware => !m.below middleware.base req || middleware.lets req then
    match router.route? m req with
    | none => .notFound
    | some route => .handled route.handler
  else .refused

variable {m router req} {handler : H} {route : Route H}

theorem Router.serve_eq_handled :
    router.serve m req = .handled handler ↔
      (∀ middleware ∈ router.middlewares, m.below middleware.base req = true → middleware.lets req = true) ∧
        ∃ route, router.route? m req = some route ∧ route.handler = handler := by
  have passes : (router.middlewares.all fun middleware => !m.below middleware.base req || middleware.lets req) = true ↔
      ∀ middleware ∈ router.middlewares, m.below middleware.base req = true → middleware.lets req = true := by
    simp [List.all_eq_true, Bool.or_eq_true, or_iff_not_imp_left]
  rw [← passes, Router.serve]
  split
  · next pass =>
    cases found : router.route? m req with
    | none => simp
    | some route => simp [pass]
  · next blocked => simp [blocked]

theorem Router.route?_some (found : router.route? m req = some route) :
    route ∈ router.routes ∧ route.serves m req = true :=
  ⟨List.mem_of_find?_eq_some found, by simpa using List.find?_some found⟩

theorem Router.exists_route (member : route ∈ router.routes) (serves : route.serves m req = true) :
    ∃ taken, router.route? m req = some taken := by
  rw [← Option.isSome_iff_exists, Router.route?, List.find?_isSome]
  exact ⟨route, member, serves⟩

end Serving

def Segment.accepts : Segment → String → Bool
  | .literal text, given => fold text == fold given
  | .param _, given => given != ""

def accepts : List Segment → List String → Bool
  | [], [] => true
  | segment :: rest, given :: path => segment.accepts given && accepts rest path
  | _, _ => false

theorem stem_prefix_of_accepts : ∀ {route : List Segment} {path : List String}, accepts route path = true →
    folded (stem route) <+: folded path
  | [], _, _ => by simp [stem]
  | .param _ :: _, _, _ => by simp [stem]
  | .literal _ :: _, [], accepted => by simp [accepts] at accepted
  | .literal text :: rest, given :: path, accepted => by
    simp only [accepts, Segment.accepts, Bool.and_eq_true, beq_iff_eq] at accepted
    rw [stem, folded, folded, List.map_cons, List.map_cons, accepted.1]
    exact List.cons_prefix_cons.mpr ⟨rfl, stem_prefix_of_accepts accepted.2⟩

def Method.texts : Method → List String
  | .get => ["GET", "HEAD"]
  | .post => ["POST"]
  | .delete => ["DELETE"]

/-- Matching by segments without regard to case. -/
def Matching.folding : Matching where
  below base req := (folded base).isPrefixOf (folded (segments req.path))
  serves method pattern req := req.method ∈ method.texts && accepts pattern (segments req.path)
  below_upto short below := by
    rw [List.isPrefixOf_iff_prefix] at below ⊢
    exact (short.map fold).trans below
  below_comparable one two :=
    List.prefix_or_prefix_of_prefix (List.isPrefixOf_iff_prefix.mp one) (List.isPrefixOf_iff_prefix.mp two)
  serves_below taken := List.isPrefixOf_iff_prefix.mpr (stem_prefix_of_accepts (Bool.and_eq_true_iff.mp taken).2)

end Routing
