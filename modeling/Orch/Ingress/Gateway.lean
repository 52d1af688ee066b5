import Orch.Ingress.Compile
import Orch.Std.Paths
import Mathlib.Data.Fintype.EquivFin

namespace Orch

/-- The gateway library. A request goes to the first route, in the order in which
the routes were added, whose prefix covers its path; a route without a host
takes the requests of all hosts. -/
structure ValeLibrary where
  parseURL : String → Check
  newEndpoint : String → Check
  covers : String → String → Bool
  covers_self : ∀ path, covers path path = true
  covers_trans : ∀ {a b c}, covers a b = true → covers b c = true → covers a c = true
  /-- Only paths that begin with the prefix are under it. -/
  begins : ∀ {start path}, covers start path = true → start.toList <+: path.toList

structure RouteMeta where
  prefixNorm : String
  stripPath : String
deriving DecidableEq

structure ValeRoute where
  pathPrefix : String
  endpoints : List String
  routeMeta : RouteMeta

inductive Served where
  | running
  | notFound
  | proxied (route : Nat) (endpoints : List String) (path : String)
deriving DecidableEq

def normalizedPath (p : String) : String :=
  let p := cleanPath p
  if rooted p then p else "/" ++ p

def trimSlashSuffix (p : String) : String :=
  if p.toList.getLast? = some '/' then String.ofList p.toList.dropLast else p

def trimSlashPrefix (p : String) : String :=
  if rooted p then String.ofList p.toList.tail else p

def normalizePathPrefix (p : String) : String :=
  let p := trimSpace p
  if p = "" ∨ p = "/" then "/"
  else
    let p := if rooted p then p else "/" ++ p
    if p ≠ "/" then trimSlashSuffix p else p

namespace CompiledRoute

/-- The compiled routes name one upstream and no list of them. -/
def upstreamEndpoints (raw : CompiledRoute) : List String :=
  if trimSpace raw.upstream ≠ "" then [trimSpace raw.upstream] else []

end CompiledRoute

def newRouteMeta (raw : CompiledRoute) : Except Failure RouteMeta :=
  if raw.upstreamEndpoints = [] then .error (.errorf "no upstream endpoints")
  else
    let pp := normalizePathPrefix raw.pathPrefix
    if pp = "/" then .ok { prefixNorm := "", stripPath := "/" }
    else
      let prefixNorm := String.ofList (Paths.trim (trimSlashPrefix pp).toList)
      let strip := trimSpace raw.stripPrefix
      let stripPath := cleanPath (if strip = "" then pp else strip)
      .ok { prefixNorm, stripPath := if stripPath ≠ "/" ∧ ¬ rooted stripPath then "/" ++ stripPath else stripPath }

namespace RouteMeta

def matchesPath (m : RouteMeta) (reqPath : String) : Bool :=
  if m.prefixNorm = "" then true
  else
    let base := "/" ++ m.prefixNorm
    if reqPath = base then true else (base ++ "/").toList.isPrefixOf reqPath.toList

def pathRel (m : RouteMeta) (reqPath : String) : Option String :=
  if m.prefixNorm = "" then some reqPath
  else if ¬ m.stripPath.toList.isPrefixOf reqPath.toList then none
  else
    let rel := String.ofList (reqPath.toList.drop m.stripPath.toList.length)
    some (if rel = "" then "/" else if ¬ rooted rel then "/" ++ rel else rel)

end RouteMeta

def valeRewriteHandler (m : RouteMeta) (path : String) : Option String :=
  let p := normalizedPath path
  if !m.matchesPath p then none else m.pathRel p

def normalizeProxyServers (eps : List String) : List String :=
  eps.filterMap fun s =>
    let s := trimSpace s
    if s = "" then none
    else if !"http://".toList.isPrefixOf s.toList && !"https://".toList.isPrefixOf s.toList then some ("http://" ++ s)
    else some s

namespace ValeLibrary

variable (vale : ValeLibrary)

def buildValeEndpoint (raw : String) : Check := do
  Check.wrap (vale.parseURL raw) "parse upstream %q" [.text raw]
  Check.wrap (vale.newEndpoint raw) "upstream %q" [.text raw]

def buildValeEndpoints (eps : List String) : Except Failure (List String) :=
  let servers := normalizeProxyServers eps
  if servers = [] then .error (.errorf "no valid upstream URLs")
  else do
    checkEach servers fun _ raw => vale.buildValeEndpoint raw
    return servers

/-- With one upstream there is nothing to balance, so the policy is not read. -/
def addValeRoute (index : Nat) (raw : CompiledRoute) : Except Failure ValeRoute :=
  match newRouteMeta raw with
  | .error err => .error (.wrapf err "route %d (prefix %q)" [.number index, .text raw.pathPrefix])
  | .ok routeMeta =>
    match vale.buildValeEndpoints raw.upstreamEndpoints with
    | .error err => .error (.wrapf err "route %d" [.number index])
    | .ok endpoints => .ok { pathPrefix := normalizePathPrefix raw.pathPrefix, endpoints, routeMeta }

def addValeRoutes : Nat → List CompiledRoute → Except Failure (List ValeRoute)
  | _, [] => .ok []
  | index, raw :: rest => do
    let route ← vale.addValeRoute index raw
    let routes ← addValeRoutes (index + 1) rest
    return route :: routes

def buildValeSnapshot (routes : List CompiledRoute) : Except Failure (List ValeRoute) := vale.addValeRoutes 0 routes

def serveHTTP (snapshot : List ValeRoute) (path : String) : Served :=
  if snapshot.length = 0 then .running
  else
    match snapshot.findIdx? fun route => vale.covers route.pathPrefix path with
    | none => .notFound
    | some index =>
      match snapshot[index]? with
      | none => .notFound
      | some route =>
        match valeRewriteHandler route.routeMeta path with
        | none => .notFound
        | some rel => .proxied index route.endpoints rel

/-- The gateway takes the upstream of the route. -/
def Accepts (raw : CompiledRoute) : Prop :=
  raw.upstreamEndpoints ≠ [] ∧ ∃ endpoints, vale.buildValeEndpoints raw.upstreamEndpoints = .ok endpoints

end ValeLibrary

structure Offer where
  app : App
  ingress : Ingress
  route : IngressRoute
deriving DecidableEq

def ingressOffers (apps : List App) : List Offer :=
  (orderedApps apps).flatMap fun app => app.ingresses.flatMap fun ingress => ingress.routes.map fun route => { app, ingress, route }

/-- The compiled routes, each with the route that it stems from. -/
def compiledOffers (opts : IngressCompileOptions) (apps : List App) : List (Offer × CompiledRoute) :=
  (ingressOffers apps).filterMap fun offer => (compileRoute opts offer.app offer.route).map (offer, ·)

theorem map_snd_compiledOffers (opts : IngressCompileOptions) (apps : List App) :
    (compiledOffers opts apps).map Prod.snd = compileIngressRoutesFromDeploy opts apps := by
  have plain : (compiledOffers opts apps).map Prod.snd =
      (ingressOffers apps).filterMap fun offer => compileRoute opts offer.app offer.route := by
    simp [compiledOffers, List.map_filterMap, Option.map_map, Function.comp_def]
  rw [plain]
  simp only [ingressOffers, List.filterMap_flatMap, List.filterMap_map]
  rfl

/-- The app has an ingress for the host, or for all hosts, that leads from the
path to the backend. -/
def App.Backs (app : App) (vale : ValeLibrary) (host path : String) (backend : EndpointRef) : Prop :=
  ∃ ing ∈ app.ingresses, (ing.host = "" ∨ ing.host = host) ∧ ∃ route ∈ ing.routes,
    (∃ start, ingressPath route.path = some start ∧ vale.covers (normalizePathPrefix start) path = true) ∧
      trimSpace route.backend.workload = trimSpace backend.workload ∧
        trimSpace route.backend.endpoint = trimSpace backend.endpoint

section Requests

variable (vale : ValeLibrary) (opts : IngressCompileOptions) (apps : List App)

/-- The compiled routes send a request for the path to the backend of the offer. -/
def SentBy (path : String) (offer : Offer) : Prop :=
  ∃ snapshot index endpoints rel compiled,
    vale.buildValeSnapshot (compileIngressRoutesFromDeploy opts apps) = .ok snapshot ∧
      vale.serveHTTP snapshot path = .proxied index endpoints rel ∧
        (compiledOffers opts apps)[index]? = some (offer, compiled)

def HostRespected (host path : String) : Prop :=
  ∀ offer, SentBy vale opts apps path offer → offer.app.Backs vale host path offer.route.backend

end Requests

/-- The prefix, without the slashes around it, has no empty segment and none of dots. -/
def Tidy (path : String) : Prop :=
  let base := '/' :: Paths.trim (normalizePathPrefix path).toList.tail
  Paths.clean base = base

instance (path : String) : Decidable (Tidy path) := by
  unfold Tidy
  infer_instance

variable {p : String}

theorem rooted_trimSlashSuffix (root : rooted p = true) (more : p ≠ "/") : rooted (trimSlashSuffix p) = true := by
  unfold trimSlashSuffix
  split
  · obtain ⟨rest, long⟩ := rooted_iff.mp root
    rw [rooted_iff, String.toList_ofList, long]
    cases rest with
    | nil => exact absurd (String.toList_injective long) more
    | cons c rest => exact ⟨_, List.dropLast_cons_cons⟩
  · exact root

theorem rooted_normalizePathPrefix (p : String) : rooted (normalizePathPrefix p) = true := by
  unfold normalizePathPrefix
  dsimp only
  split
  · rfl
  have root : rooted (if rooted (trimSpace p) then trimSpace p else "/" ++ trimSpace p) = true := by
    split
    · assumption
    · simp [rooted, String.toList_append]
  generalize (if rooted (trimSpace p) then trimSpace p else "/" ++ trimSpace p) = long at root ⊢
  split
  · rename_i more
    exact rooted_trimSlashSuffix root more
  · exact root

variable {raw : CompiledRoute} {m : RouteMeta}

theorem newRouteMeta_cases (made : newRouteMeta raw = .ok m) :
    normalizePathPrefix raw.pathPrefix = "/" ∧ m = ⟨"", "/"⟩ ∨
      m.prefixNorm = String.ofList (Paths.trim (trimSlashPrefix (normalizePathPrefix raw.pathPrefix)).toList) ∧
        ∃ strip, strip = cleanPath (if trimSpace raw.stripPrefix = "" then normalizePathPrefix raw.pathPrefix
            else trimSpace raw.stripPrefix) ∧
          m.stripPath = if strip ≠ "/" ∧ ¬ rooted strip then "/" ++ strip else strip := by
  unfold newRouteMeta at made
  split at made
  · cases made
  dsimp only at made
  split at made
  · rename_i root
    exact .inl ⟨root, (Except.ok.inj made).symm⟩
  · have same := Except.ok.inj made
    exact .inr ⟨same ▸ rfl, _, rfl, same ▸ rfl⟩

theorem newRouteMeta_ok (made : newRouteMeta raw = .ok m) :
    m.prefixNorm = String.ofList (Paths.trim (normalizePathPrefix raw.pathPrefix).toList.tail) := by
  rcases newRouteMeta_cases made with ⟨root, rfl⟩ | ⟨norm, -⟩
  · rw [root]
    rfl
  · rw [norm, trimSlashPrefix, if_pos (rooted_normalizePathPrefix _), String.toList_ofList]

theorem normalizedPath_of_rooted (root : rooted p = true) : normalizedPath p = cleanPath p :=
  if_pos (rooted_cleanPath root)

theorem newRouteMeta_local (made : newRouteMeta raw = .ok m) (strips : raw.stripPrefix = "") :
    m.stripPath = cleanPath (normalizePathPrefix raw.pathPrefix) := by
  rcases newRouteMeta_cases made with ⟨root, rfl⟩ | ⟨-, strip, cleaned, stripped⟩
  · rw [root]
    decide +kernel
  have blank : trimSpace raw.stripPrefix = "" := by
    rw [strips]
    exact trimSpace_of_all (by simp)
  rw [if_pos blank] at cleaned
  have root := rooted_cleanPath (rooted_normalizePathPrefix raw.pathPrefix)
  rw [stripped, cleaned, if_neg fun ⟨_, unrooted⟩ => unrooted root]

theorem newRouteMeta_remote (made : newRouteMeta raw = .ok m) (strips : raw.stripPrefix = "/") :
    m.stripPath = "/" := by
  rcases newRouteMeta_cases made with ⟨root, rfl⟩ | ⟨-, strip, cleaned, stripped⟩
  · rfl
  have slash : trimSpace raw.stripPrefix = "/" := by
    rw [strips]
    exact trimSpace_of_all (by simp [isSpace])
  have clean : cleanPath "/" = "/" := by decide +kernel
  rw [slash, if_neg (show ¬ ("/" : String) = "" by decide), clean] at cleaned
  rw [stripped, cleaned, if_neg (not_and_of_not_left _ (not_not.mpr rfl))]

variable {path : String}

theorem RouteMeta.matchesPath_iff (named : m.prefixNorm ≠ "") :
    m.matchesPath path = true ↔
      ∃ rest, path.toList = '/' :: m.prefixNorm.toList ++ rest ∧ (rest = [] ∨ ∃ more, rest = '/' :: more) := by
  have whole : path = "/" ++ m.prefixNorm ↔ path.toList = '/' :: m.prefixNorm.toList ++ [] := by
    rw [← String.toList_inj]
    simp
  unfold matchesPath
  simp only [if_neg named, Bool.if_true_left, Bool.or_eq_true, decide_eq_true_eq, List.isPrefixOf_iff_prefix, whole]
  constructor
  · rintro (exact | ⟨more, longer⟩)
    · exact ⟨[], exact, .inl rfl⟩
    · exact ⟨'/' :: more, by simp [← longer], .inr ⟨more, rfl⟩⟩
  · rintro ⟨rest, longer, rfl | ⟨more, rfl⟩⟩
    · exact .inl longer
    · exact .inr ⟨more, by simp [longer]⟩

theorem tidy_of_matches (made : newRouteMeta raw = .ok m) (clean : cleanPath path = path)
    (passes : m.matchesPath path = true) : Tidy raw.pathPrefix := by
  have tidy : Paths.clean path.toList = path.toList := by
    simpa [cleanPath] using congrArg String.toList clean
  have norm := newRouteMeta_ok made
  unfold Tidy
  generalize Paths.trim (normalizePathPrefix raw.pathPrefix).toList.tail = base at norm ⊢
  by_cases named : m.prefixNorm = ""
  · rw [norm] at named
    rw [String.ofList_eq_empty_iff.mp named]
    rfl
  obtain ⟨rest, whole, ends⟩ := (RouteMeta.matchesPath_iff named).mp passes
  rw [norm, String.toList_ofList, List.cons_append] at whole
  rw [whole] at tidy
  rcases ends with rfl | ⟨more, rfl⟩
  · simpa using tidy
  · exact Paths.clean_upto tidy ⟨more, by simp⟩

theorem valeRewriteHandler_of_matches (passes : m.matchesPath (normalizedPath p) = true) :
    valeRewriteHandler m p = m.pathRel (normalizedPath p) :=
  if_neg (by simp [passes])

theorem matches_of_rewritten {rel : String} (sent : valeRewriteHandler m p = some rel) :
    m.matchesPath (normalizedPath p) = true := by
  unfold valeRewriteHandler at sent
  by_contra fails
  rw [if_pos (by simpa using fails)] at sent
  cases sent

theorem tidy_of_rewrite (made : newRouteMeta raw = .ok m) {path rel : String} (root : rooted path = true)
    (sent : valeRewriteHandler m path = some rel) : Tidy raw.pathPrefix := by
  have passes := matches_of_rewritten sent
  rw [normalizedPath_of_rooted root] at passes
  exact tidy_of_matches made (cleanPath_cleanPath root) passes

theorem cleanPath_of_tidy (made : newRouteMeta raw = .ok m) (tidy : Tidy raw.pathPrefix) :
    cleanPath (normalizePathPrefix raw.pathPrefix) = "/" ++ m.prefixNorm := by
  obtain ⟨rest, start⟩ := rooted_iff.mp (rooted_normalizePathPrefix raw.pathPrefix)
  have norm := newRouteMeta_ok made
  unfold Tidy at tidy
  rw [start, List.tail_cons] at tidy norm
  apply String.toList_injective
  rw [cleanPath, String.toList_ofList, start, ← Paths.clean_trim, tidy, norm]
  simp

theorem pathRel_of_tidy (made : newRouteMeta raw = .ok m) (tidy : Tidy raw.pathPrefix)
    (strips : raw.stripPrefix = "" ∨ raw.stripPrefix = "/") (passes : m.matchesPath path = true) :
    ∃ rel, m.pathRel path = some rel := by
  unfold RouteMeta.pathRel
  split
  · exact ⟨_, rfl⟩
  rename_i named
  obtain ⟨rest, whole, -⟩ := (RouteMeta.matchesPath_iff named).mp passes
  have strip : m.stripPath.toList.isPrefixOf path.toList = true := by
    rw [List.isPrefixOf_iff_prefix, whole]
    rcases strips with home | away
    · rw [newRouteMeta_local made home, cleanPath_of_tidy made tidy, String.toList_append]
      exact ⟨rest, rfl⟩
    · rw [newRouteMeta_remote made away]
      exact ⟨_, rfl⟩
  rw [if_neg (not_not.mpr strip)]
  exact ⟨_, rfl⟩

theorem rewrite_of_matches (made : newRouteMeta raw = .ok m) (tidy : Tidy raw.pathPrefix)
    (strips : raw.stripPrefix = "" ∨ raw.stripPrefix = "/")
    (passes : m.matchesPath (normalizedPath path) = true) : ∃ rel, valeRewriteHandler m path = some rel := by
  rw [valeRewriteHandler_of_matches passes]
  exact pathRel_of_tidy made tidy strips passes

theorem rewrite_of_tidy (made : newRouteMeta raw = .ok m) (tidy : Tidy raw.pathPrefix)
    (strips : raw.stripPrefix = "" ∨ raw.stripPrefix = "/") :
    ∃ rel, valeRewriteHandler m (normalizePathPrefix raw.pathPrefix) = some rel := by
  refine rewrite_of_matches made tidy strips ?_
  rw [normalizedPath_of_rooted (rooted_normalizePathPrefix raw.pathPrefix), cleanPath_of_tidy made tidy,
    RouteMeta.matchesPath]
  simp

variable {index : Nat}

namespace ValeLibrary

variable {vale : ValeLibrary}

theorem addValeRoute_ok {raw : CompiledRoute} {route : ValeRoute} (added : vale.addValeRoute index raw = .ok route) :
    vale.Accepts raw ∧ route.pathPrefix = normalizePathPrefix raw.pathPrefix ∧ newRouteMeta raw = .ok route.routeMeta := by
  unfold addValeRoute at added
  split at added
  · cases added
  rename_i m made
  split at added
  · cases added
  rename_i endpoints built
  cases added
  have present : raw.upstreamEndpoints ≠ [] := by
    intro none
    rw [newRouteMeta, if_pos none] at made
    cases made
  exact ⟨⟨present, endpoints, built⟩, rfl, made⟩

theorem addValeRoute_of_accepts {raw : CompiledRoute} (accepts : vale.Accepts raw) (index : Nat) :
    ∃ route, vale.addValeRoute index raw = .ok route := by
  obtain ⟨present, endpoints, built⟩ := accepts
  obtain ⟨m, made⟩ : ∃ m, newRouteMeta raw = .ok m := by
    rw [newRouteMeta, if_neg present]
    dsimp only
    split
    · exact ⟨_, rfl⟩
    · exact ⟨_, rfl⟩
  rw [addValeRoute, made]
  dsimp only
  rw [built]
  exact ⟨_, rfl⟩

theorem addValeRoutes_ok : ∀ {routes : List CompiledRoute} {index : Nat} {snapshot : List ValeRoute},
    vale.addValeRoutes index routes = .ok snapshot → (∀ raw ∈ routes, vale.Accepts raw) ∧ ∀ i : Nat,
      (routes[i]?).map (fun raw => (normalizePathPrefix raw.pathPrefix, newRouteMeta raw)) =
        (snapshot[i]?).map fun route => (route.pathPrefix, .ok route.routeMeta)
  | [], _, snapshot, added => by
    cases added
    exact ⟨nofun, fun _ => rfl⟩
  | raw :: routes, index, snapshot, added => by
    obtain ⟨route, first, more⟩ := Except.bind_ok added
    obtain ⟨rest, later, same⟩ := Except.bind_ok more
    cases same
    obtain ⟨accepts, start, made⟩ := addValeRoute_ok first
    obtain ⟨others, aligned⟩ := addValeRoutes_ok later
    refine ⟨List.forall_mem_cons.mpr ⟨accepts, others⟩, fun i => ?_⟩
    cases i with
    | zero => simp [start, made]
    | succ i => exact aligned i

theorem exists_snapshot : ∀ {routes : List CompiledRoute}, (∀ raw ∈ routes, vale.Accepts raw) → ∀ index : Nat,
    ∃ snapshot, vale.addValeRoutes index routes = .ok snapshot
  | [], _, _ => ⟨[], rfl⟩
  | raw :: routes, accepts, index => by
    obtain ⟨first, rest⟩ := List.forall_mem_cons.mp accepts
    obtain ⟨route, added⟩ := addValeRoute_of_accepts first index
    obtain ⟨snapshot, more⟩ := exists_snapshot rest (index + 1)
    exact ⟨route :: snapshot, by rw [addValeRoutes, added]; simp only [more, bind, Except.bind, pure, Except.pure]⟩

theorem serveHTTP_proxied_iff {snapshot : List ValeRoute} {path rel : String} {endpoints : List String} :
    vale.serveHTTP snapshot path = .proxied index endpoints rel ↔
      ∃ route, snapshot[index]? = some route ∧ route.endpoints = endpoints ∧ vale.covers route.pathPrefix path = true ∧
        (∀ j < index, ∀ earlier, snapshot[j]? = some earlier → vale.covers earlier.pathPrefix path = false) ∧
          valeRewriteHandler route.routeMeta path = some rel := by
  constructor
  · intro served
    unfold serveHTTP at served
    split at served
    · cases served
    split at served
    · cases served
    rename_i i found
    split at served
    · cases served
    rename_i route there
    split at served
    · cases served
    rename_i _ rewritten
    cases served
    obtain ⟨inside, covered, first⟩ := List.findIdx?_eq_some_iff_getElem.mp found
    obtain rfl := Option.some.inj ((List.getElem?_eq_getElem inside).symm.trans there)
    refine ⟨_, there, rfl, covered, fun j earlier other at_j => ?_, rewritten⟩
    obtain ⟨_, rfl⟩ := List.getElem?_eq_some_iff.mp at_j
    simpa using first j earlier
  · rintro ⟨route, there, rfl, covered, first, rewritten⟩
    obtain ⟨inside, rfl⟩ := List.getElem?_eq_some_iff.mp there
    have found : (snapshot.findIdx? fun route => vale.covers route.pathPrefix path) = some index :=
      List.findIdx?_eq_some_iff_getElem.mpr ⟨inside, covered, fun j earlier =>
        by simpa using first j earlier _ (List.getElem?_eq_getElem (earlier.trans inside))⟩
    unfold serveHTTP
    rw [if_neg (by omega), found]
    dsimp only
    rw [there]
    dsimp only
    rw [rewritten]

end ValeLibrary

variable {opts : IngressCompileOptions} {compiled : CompiledRoute}

theorem compileRoute_ok {app : App} {route : IngressRoute} (compiles : compileRoute opts app route = some compiled) :
    ingressPath route.path = some compiled.pathPrefix ∧ compiled.stripPrefix =
      if (remoteIngressUpstream opts app (trimSpace route.backend.workload)).isSome then "/" else "" := by
  simp only [compileRoute] at compiles
  split at compiles
  · cases compiles
  rename_i given
  split at compiles
  · cases compiles
  split at compiles
  · cases compiles
  obtain ⟨⟨upstream, stripPrefix⟩, target, rfl⟩ := Option.map_eq_some_iff.mp compiles
  refine ⟨given, ?_⟩
  unfold workloadTarget at target
  split at target
  · rename_i remote
    cases target
    rw [remote]
    rfl
  · rename_i none
    obtain ⟨_, _, ⟨⟩⟩ := Option.map_eq_some_iff.mp target
    rw [none]
    rfl

theorem compileRoute_strip {app : App} {route : IngressRoute} (compiles : compileRoute opts app route = some compiled) :
    compiled.stripPrefix = "" ∨ compiled.stripPrefix = "/" := by
  rw [(compileRoute_ok compiles).2]
  split
  · exact .inr rfl
  · exact .inl rfl

theorem compileRoute_of_compiledOffers {apps : List App} {offer : Offer}
    (listed : (compiledOffers opts apps)[index]? = some (offer, compiled)) :
    compileRoute opts offer.app offer.route = some compiled := by
  obtain ⟨origin, -, made⟩ := List.mem_filterMap.mp (List.mem_of_getElem? listed)
  obtain ⟨_, compiles, same⟩ := Option.map_eq_some_iff.mp made
  cases same
  exact compiles

section Requests

variable (vale : ValeLibrary) (opts : IngressCompileOptions) (apps : List App)

/-- Some request reaches the backend by this route: its prefix is tidy and not
under the prefix of an earlier route. -/
structure Reachable (index : Nat) (compiled : CompiledRoute) : Prop where
  tidy : Tidy compiled.pathPrefix
  first : ∀ j < index, ∀ earlier, (compiledOffers opts apps)[j]? = some earlier →
    vale.covers (normalizePathPrefix earlier.2.pathPrefix) (normalizePathPrefix compiled.pathPrefix) = false

/-- Every backend that a request can reach has an ingress for all hosts, with a
route over the one it is reached by. -/
def BackedForAll : Prop :=
  (∀ raw ∈ compileIngressRoutesFromDeploy opts apps, vale.Accepts raw) → ∀ index offer compiled,
    (compiledOffers opts apps)[index]? = some (offer, compiled) → Reachable vale opts apps index compiled →
      offer.app.Backs vale "" (normalizePathPrefix compiled.pathPrefix) offer.route.backend

end Requests

section Reached

variable {vale : ValeLibrary} {opts : IngressCompileOptions} {apps : List App} {snapshot : List ValeRoute}

theorem aligned_offers (built : vale.buildValeSnapshot (compileIngressRoutesFromDeploy opts apps) = .ok snapshot) (i : Nat) :
    ((compiledOffers opts apps)[i]?).map (fun entry => (normalizePathPrefix entry.2.pathPrefix, newRouteMeta entry.2)) =
      (snapshot[i]?).map fun route => (route.pathPrefix, .ok route.routeMeta) := by
  have aligned := (ValeLibrary.addValeRoutes_ok built).2 i
  rw [← map_snd_compiledOffers, List.getElem?_map, Option.map_map] at aligned
  exact aligned

theorem reachable_of_sentBy {offer : Offer} (sent : SentBy vale opts apps path offer) :
    ∃ index compiled, (compiledOffers opts apps)[index]? = some (offer, compiled) ∧
      vale.covers (normalizePathPrefix compiled.pathPrefix) path = true ∧ Reachable vale opts apps index compiled := by
  obtain ⟨snapshot, index, endpoints, rel, compiled, built, served, listed⟩ := sent
  obtain ⟨route, there, -, covered, first, rewritten⟩ := ValeLibrary.serveHTTP_proxied_iff.mp served
  have own := aligned_offers built index
  rw [listed, there] at own
  simp only [Option.map_some, Option.some.injEq, Prod.mk.injEq] at own
  rw [← own.1] at covered
  have root : rooted path = true := by
    obtain ⟨rest, start⟩ := rooted_iff.mp (rooted_normalizePathPrefix compiled.pathPrefix)
    obtain ⟨tail, whole⟩ := start ▸ vale.begins covered
    exact rooted_iff.mpr ⟨_, whole.symm⟩
  refine ⟨index, compiled, listed, covered, tidy_of_rewrite own.2 root rewritten, fun j before earlier at_j => ?_⟩
  have other := aligned_offers built j
  rw [at_j, Option.map_some] at other
  obtain ⟨route', there', same⟩ := Option.map_eq_some_iff.mp other.symm
  have apart := first j before route' there'
  rw [(Prod.mk.inj same).1] at apart
  by_contra under
  exact absurd (vale.covers_trans (by simpa using under) covered) (by simp [apart])

/-- A route that none before it covers gets the requests for its own path. -/
theorem sentBy_of_reachable (built : vale.buildValeSnapshot (compileIngressRoutesFromDeploy opts apps) = .ok snapshot)
    {offer : Offer} {compiled : CompiledRoute} (listed : (compiledOffers opts apps)[index]? = some (offer, compiled))
    (reachable : Reachable vale opts apps index compiled) :
    SentBy vale opts apps (normalizePathPrefix compiled.pathPrefix) offer := by
  have own := aligned_offers built index
  rw [listed, Option.map_some] at own
  obtain ⟨route, there, same⟩ := Option.map_eq_some_iff.mp own.symm
  obtain ⟨start, made⟩ := Prod.mk.inj same
  obtain ⟨rel, rewritten⟩ := rewrite_of_tidy made.symm reachable.tidy (compileRoute_strip (compileRoute_of_compiledOffers listed))
  refine ⟨snapshot, index, route.endpoints, rel, compiled, built, ?_, listed⟩
  refine ValeLibrary.serveHTTP_proxied_iff.mpr ⟨route, there, rfl, ?_, fun j before earlier at_j => ?_, rewritten⟩
  · rw [start]
    exact vale.covers_self _
  · have other := aligned_offers built j
    rw [at_j, Option.map_some] at other
    obtain ⟨entry, listed', same'⟩ := Option.map_eq_some_iff.mp other
    rw [← (Prod.mk.inj same').1]
    exact reachable.first j before entry listed'

end Reached

theorem exists_fresh_host (hosts : List String) : ∃ host : String, host ∉ hosts := by
  have infinite : Infinite String := .of_injective String.ofList fun _ _ same => String.ofList_injective same
  obtain ⟨host, fresh⟩ := Infinite.exists_notMem_finset hosts.toFinset
  exact ⟨host, by simpa using fresh⟩

/-- Hosts are respected for all requests exactly if each backend that a request
can reach may be asked for under every host by that path. -/
theorem hosts_respected_iff (vale : ValeLibrary) (opts : IngressCompileOptions) (apps : List App) :
    (∀ host path, HostRespected vale opts apps host path) ↔ BackedForAll vale opts apps := by
  constructor
  · intro respected accepted index offer compiled listed reachable
    obtain ⟨snapshot, built⟩ := ValeLibrary.exists_snapshot accepted 0
    obtain ⟨host, fresh⟩ := exists_fresh_host (offer.app.ingresses.map Ingress.host)
    obtain ⟨ing, member, named, backed⟩ := respected host _ offer (sentBy_of_reachable built listed reachable)
    rcases named with every | own
    · exact ⟨ing, member, .inl every, backed⟩
    · exact absurd (List.mem_map.mpr ⟨ing, member, own⟩) fresh
  · intro backed host path offer sent
    obtain ⟨index, compiled, listed, covered, reachable⟩ := reachable_of_sentBy sent
    obtain ⟨snapshot, -, -, -, -, built, -⟩ := sent
    obtain ⟨ing, member, named, route, offered, ⟨start, given, above⟩, same⟩ :=
      backed (ValeLibrary.addValeRoutes_ok built).1 index offer compiled listed reachable
    exact ⟨ing, member, .inl (named.elim id id), route, offered, ⟨start, given, vale.covers_trans above covered⟩, same⟩

def hostedRoute : IngressRoute where
  path := "/"
  backend := { workload := "web", endpoint := "http" }

def hostedIngress : Ingress where
  name := "public"
  host := "a.example"
  routes := [hostedRoute]

def hostedApp : App where
  metadata := { name := "site" }
  workloads := [{ imageWorkload "web" "nginx" with endpoints := [{ name := "http", port := 80, protocol := .http }] }]
  ingresses := [hostedIngress]

def localOptions : IngressCompileOptions where
  dns := some fun _ _ => some "10.0.0.1"
  assignments := none
  remoteIngressBaseURL _ := none
  localNodeID := "n1"

theorem sentBy_hostedApp {vale : ValeLibrary} (parsed : vale.parseURL "http://10.0.0.1:80" = .ok ())
    (made : vale.newEndpoint "http://10.0.0.1:80" = .ok ()) :
    SentBy vale localOptions [hostedApp] "/" ⟨hostedApp, hostedIngress, hostedRoute⟩ := by
  let compiled : CompiledRoute := { pathPrefix := "/", upstream := "http://10.0.0.1:80" }
  have listed : compiledOffers localOptions [hostedApp] = [(⟨hostedApp, hostedIngress, hostedRoute⟩, compiled)] := by
    decide +kernel
  have accepts : vale.Accepts compiled := by
    have endpoints : compiled.upstreamEndpoints = ["http://10.0.0.1:80"] := by decide +kernel
    have servers : normalizeProxyServers ["http://10.0.0.1:80"] = ["http://10.0.0.1:80"] := by decide +kernel
    refine ⟨by simp [endpoints], ["http://10.0.0.1:80"], ?_⟩
    rw [endpoints, ValeLibrary.buildValeEndpoints, servers]
    simp [checkEach, checkFrom, ValeLibrary.buildValeEndpoint, parsed, made, Check.wrap, bind, Except.bind, pure, Except.pure]
  obtain ⟨snapshot, built⟩ : ∃ snapshot,
      vale.buildValeSnapshot (compileIngressRoutesFromDeploy localOptions [hostedApp]) = .ok snapshot := by
    rw [← map_snd_compiledOffers, listed]
    exact ValeLibrary.exists_snapshot (List.forall_mem_singleton.mpr accepts) 0
  have first : (compiledOffers localOptions [hostedApp])[0]? = some (⟨hostedApp, hostedIngress, hostedRoute⟩, compiled) := by
    rw [listed]
    rfl
  have tidy : Tidy compiled.pathPrefix := by decide +kernel
  have path : normalizePathPrefix compiled.pathPrefix = "/" := by decide +kernel
  have sent := sentBy_of_reachable built first ⟨tidy, nofun⟩
  rwa [path] at sent

def textualVale : ValeLibrary where
  parseURL _ := .ok ()
  newEndpoint _ := .ok ()
  covers start path := start.toList.isPrefixOf path.toList
  covers_self _ := List.isPrefixOf_iff_prefix.mpr List.prefix_rfl
  covers_trans first second := List.isPrefixOf_iff_prefix.mpr
    ((List.isPrefixOf_iff_prefix.mp first).trans (List.isPrefixOf_iff_prefix.mp second))
  begins under := List.isPrefixOf_iff_prefix.mp under

theorem host_ignored :
    ¬ ∀ (vale : ValeLibrary) (sorter : GraphSorter) (opts : IngressCompileOptions) (apps : List App),
      (∀ app ∈ apps, app.validate sorter = .ok ()) → ∀ host path, HostRespected vale opts apps host path := by
  intro respected
  have valid : ∀ app ∈ [hostedApp], app.validate (Topological.peeling String) = .ok () := by
    rw [List.forall_mem_singleton]
    decide +kernel
  obtain ⟨ing, member, named, -⟩ := respected textualVale _ localOptions [hostedApp] valid "b.example" "/" _
    (sentBy_hostedApp rfl rfl)
  obtain rfl := List.mem_singleton.mp member
  exact absurd named (by decide)

end Orch
