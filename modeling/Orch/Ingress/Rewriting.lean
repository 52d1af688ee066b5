import Orch.Ingress.Gateway

namespace Orch

theorem normalizedPath_start (p : String) : ∃ rest, (normalizedPath p).toList = '/' :: rest ∧ rest.head? ≠ some '/' := by
  unfold normalizedPath
  dsimp only
  split
  · rename_i root
    obtain ⟨rest, start⟩ := rooted_iff.mp root
    have cleaned : Paths.clean p.toList = [] ++ '/' :: rest := by rw [← start, cleanPath, String.toList_ofList]; rfl
    exact ⟨rest, start, ((Paths.clean_slash cleaned).1 rfl).2⟩
  · rename_i unrooted
    refine ⟨(cleanPath p).toList, by simp, fun root => unrooted ?_⟩
    rw [rooted, root]
    rfl

theorem normalizedPath_end (p : String) {base : List Char} (some : base ≠ []) :
    (normalizedPath p).toList ≠ '/' :: base ++ ['/'] := by
  intro ends
  unfold normalizedPath at ends
  dsimp only at ends
  split at ends
  · have cleaned : Paths.clean p.toList = '/' :: base ++ '/' :: [] := by rw [← ends, cleanPath, String.toList_ofList]
    exact (Paths.clean_slash cleaned).2 (List.cons_ne_nil _ _) rfl
  · have cleaned : Paths.clean p.toList = base ++ '/' :: [] := by
      simpa [cleanPath] using ends
    exact (Paths.clean_slash cleaned).2 some rfl

/-- The path begins with a slash, or with one in front of what cleaning leaves of
it there is nothing more to clean: no dots lead it. -/
def Anchored (p : String) : Prop :=
  rooted p = true ∨ cleanPath ("/" ++ cleanPath p) = "/" ++ cleanPath p

theorem anchored_iff {p : String} : Anchored p ↔ cleanPath (normalizedPath p) = normalizedPath p := by
  by_cases root : rooted p = true
  · rw [normalizedPath_of_rooted root]
    exact iff_of_true (.inl root) (cleanPath_cleanPath root)
  · have unrooted : ¬ rooted (cleanPath p) = true := by
      intro clean
      obtain ⟨rest, start⟩ := rooted_iff.mp clean
      have cleaned : Paths.clean p.toList = [] ++ '/' :: rest := by rw [← start, cleanPath, String.toList_ofList]; rfl
      refine root ?_
      rw [rooted, ((Paths.clean_slash cleaned).1 rfl).1]
      rfl
    rw [normalizedPath, if_neg unrooted]
    exact or_iff_right root

section Hops

variable {m : RouteMeta}

theorem pathRel_root (strip : m.stripPath = "/") (p : String) : m.pathRel (normalizedPath p) = some (normalizedPath p) := by
  obtain ⟨rest, start, single⟩ := normalizedPath_start p
  unfold RouteMeta.pathRel
  split
  · rfl
  rw [strip, if_neg (not_not.mpr (List.isPrefixOf_iff_prefix.mpr ⟨rest, start.symm⟩))]
  have dropped : (normalizedPath p).toList.drop "/".toList.length = rest := by rw [start]; rfl
  rw [dropped]
  dsimp only
  rw [Option.some_inj, ← String.toList_inj, start]
  split
  · rename_i none
    rw [String.ofList_eq_empty_iff.mp none]
    rfl
  · rw [if_pos (by simpa [rooted] using single)]
    simp

/-- The rest of a path goes on where the prefix ends. -/
def RouteMeta.Splits (m : RouteMeta) (path rel : String) : Prop :=
  m.stripPath ++ rel = path ∨ m.stripPath = path ∧ rel = "/"

theorem pathRel_splits (strip : m.stripPath = "/" ++ m.prefixNorm) (named : m.prefixNorm ≠ "") {path : String}
    (passes : m.matchesPath path = true) : ∃ rel, m.pathRel path = some rel ∧ m.Splits path rel := by
  obtain ⟨rest, whole, ends⟩ := (RouteMeta.matchesPath_iff named).mp passes
  have chars : path.toList = m.stripPath.toList ++ rest := by
    rw [whole, strip, String.toList_append]
    rfl
  unfold RouteMeta.pathRel
  rw [if_neg named, if_neg (not_not.mpr (List.isPrefixOf_iff_prefix.mpr ⟨rest, chars.symm⟩)), chars, List.drop_left]
  refine ⟨_, rfl, ?_⟩
  rcases ends with rfl | ⟨more, rfl⟩
  · exact .inr ⟨String.toList_injective (by simp [chars]), by simp⟩
  · exact .inl (String.toList_injective (by simp [chars, rooted]))

end Hops

/-- A request goes through a route to another node and then through the route of
that node, and the workload gets the path that it gets from the latter alone.
The latter strips a prefix that leads to the path again. -/
def PathKept (away home : RouteMeta) (p : String) : Prop :=
  (valeRewriteHandler away p).bind (valeRewriteHandler home) = valeRewriteHandler home p ∧
    (home.prefixNorm ≠ "" → ∃ rel, home.pathRel (normalizedPath p) = some rel ∧ home.Splits (normalizedPath p) rel)

section Forwarded

variable {here there : IngressCompileOptions} {app : App} {route : IngressRoute} {near far : CompiledRoute}
  {home away : RouteMeta} {p : String}

/-- Forwarding keeps the path of a request that the route takes exactly when the
path begins with a slash or is not led by dots. -/
theorem forwarded_path_kept_iff (compiles : compileRoute here app route = some near)
    (atHome : remoteIngressUpstream here app (trimSpace route.backend.workload) = none)
    (compilesAway : compileRoute there app route = some far)
    (elsewhere : (remoteIngressUpstream there app (trimSpace route.backend.workload)).isSome = true)
    (made : newRouteMeta near = .ok home) (madeAway : newRouteMeta far = .ok away)
    (passes : home.matchesPath (normalizedPath p) = true) : PathKept away home p ↔ Anchored p := by
  obtain ⟨path, strips⟩ := compileRoute_ok compiles
  obtain ⟨path', strips'⟩ := compileRoute_ok compilesAway
  rw [atHome] at strips
  rw [elsewhere] at strips'
  have samePath : near.pathPrefix = far.pathPrefix := Option.some.inj (path.symm.trans path')
  have same : home.prefixNorm = away.prefixNorm := by
    rw [newRouteMeta_ok made, newRouteMeta_ok madeAway, samePath]
  have handed : valeRewriteHandler away p = some (normalizedPath p) := by
    have also : away.matchesPath (normalizedPath p) = true := by
      rw [← passes, RouteMeta.matchesPath, RouteMeta.matchesPath, same]
    rw [valeRewriteHandler_of_matches also, pathRel_root (newRouteMeta_remote madeAway strips')]
  have start : rooted (normalizedPath p) = true := by
    obtain ⟨rest, start, -⟩ := normalizedPath_start p
    exact rooted_iff.mpr ⟨rest, start⟩
  have again : normalizedPath (normalizedPath p) = cleanPath (normalizedPath p) := normalizedPath_of_rooted start
  have clean : cleanPath (cleanPath (normalizedPath p)) = cleanPath (normalizedPath p) := cleanPath_cleanPath start
  have splits : ∀ {path : String}, cleanPath path = path → home.matchesPath path = true → home.prefixNorm ≠ "" →
      ∃ rel, home.pathRel path = some rel ∧ home.Splits path rel := by
    intro path clean passes named
    have strip := newRouteMeta_local made strips
    rw [cleanPath_of_tidy made (tidy_of_matches made clean passes)] at strip
    exact pathRel_splits strip named passes
  rw [anchored_iff, PathKept, handed, Option.bind_some]
  constructor
  · rintro ⟨kept, split⟩
    by_cases named : home.prefixNorm = ""
    · have all : ∀ path, valeRewriteHandler home path = some (normalizedPath path) := by
        intro path
        simp [valeRewriteHandler, RouteMeta.matchesPath, RouteMeta.pathRel, named]
      rw [all, all, again] at kept
      exact Option.some.inj kept
    obtain ⟨rel, sent, one⟩ := split named
    rw [valeRewriteHandler_of_matches passes, sent] at kept
    have passes' := matches_of_rewritten kept
    rw [valeRewriteHandler_of_matches passes'] at kept
    rw [again] at kept passes'
    obtain ⟨rel', sent', two⟩ := splits clean passes' named
    cases sent'.symm.trans kept
    have strip := newRouteMeta_local made strips
    rcases one with one | ⟨one, -⟩
    · rcases two with two | ⟨two, rfl⟩
      · exact two.symm.trans one
      · -- the path would end in a slash, which cleaning takes away
        rw [cleanPath_of_tidy made (tidy_of_matches made clean passes')] at strip
        have ends : (normalizedPath p).toList = '/' :: home.prefixNorm.toList ++ ['/'] := by
          rw [← one, strip]
          simp
        exact absurd ends (normalizedPath_end p (by simpa using named))
    · rw [← one, strip]
      exact cleanPath_cleanPath (rooted_normalizePathPrefix _)
  · intro clean
    refine ⟨?_, splits clean passes⟩
    rw [valeRewriteHandler, valeRewriteHandler, again, clean]

end Forwarded

section Under

variable {path : String}

def pathBelow (path : String) (added : List Paths.Segment) : String :=
  if added = [] then path else path ++ "/" ++ String.ofList (['/'].intercalate added)

theorem ingressPath_ok {raw : String} (given : ingressPath raw = some path) : rooted path = true ∧ trimSpace path = path := by
  unfold ingressPath at given
  dsimp only at given
  split at given
  · cases given
  rename_i named
  split at given
  · rename_i root
    cases given
    exact ⟨by simp [rooted, root], trimSpace_trimSpace raw⟩
  · cases given
    have slash : trimSpace "/" = "/" := trimSpace_of_all (by simp [isSpace])
    exact ⟨by simp [rooted], trimSpace_append slash (trimSpace_trimSpace raw) (by decide) named⟩

theorem segments_normalizePathPrefix (root : rooted path = true) (trimmed : trimSpace path = path) :
    Paths.segments true (normalizePathPrefix path).toList.tail = Paths.segments true path.toList.tail := by
  obtain ⟨rest, start⟩ := rooted_iff.mp root
  unfold normalizePathPrefix
  dsimp only
  rw [trimmed]
  split
  · rename_i blank
    rcases blank with rfl | rfl
    · cases start
    · rfl
  rename_i more
  rw [if_pos (not_or.mp more).2]
  unfold trimSlashSuffix
  split
  · rename_i ends
    rcases List.eq_nil_or_concat rest with rfl | ⟨front, last, rfl⟩
    · exact absurd (String.toList_injective start) (not_or.mp more).2
    · rw [List.concat_eq_append] at start
      rw [start, ← List.cons_append, List.getLast?_concat, Option.some_inj] at ends
      rw [String.toList_ofList, start, ← List.cons_append, List.dropLast_concat, ends]
      exact (Paths.segments_slash front).symm
  · rfl

variable {raw : CompiledRoute} {m : RouteMeta}

theorem matchesPath_below (made : newRouteMeta raw = .ok m) (tidy : Tidy raw.pathPrefix) (root : rooted raw.pathPrefix = true)
    (trimmed : trimSpace raw.pathPrefix = raw.pathPrefix) {added : List Paths.Segment}
    (plain : ∀ s ∈ added, Paths.Plain s ∧ '/' ∉ s) :
    m.matchesPath (normalizedPath (pathBelow raw.pathPrefix added)) = true := by
  by_cases named : m.prefixNorm = ""
  · simp [RouteMeta.matchesPath, named]
  obtain ⟨rest, start⟩ := rooted_iff.mp root
  have norm : ['/'].intercalate (Paths.segments true rest) = m.prefixNorm.toList := by
    obtain ⟨tail, begins⟩ := rooted_iff.mp (rooted_normalizePathPrefix raw.pathPrefix)
    have same := segments_normalizePathPrefix root trimmed
    rw [start, begins, List.tail_cons, List.tail_cons] at same
    have clean := congrArg String.toList (cleanPath_of_tidy made tidy)
    rw [cleanPath, begins, String.toList_ofList, Paths.clean, same, String.toList_append] at clean
    exact (List.cons.inj clean).2
  rw [RouteMeta.matchesPath_iff named]
  unfold pathBelow
  split
  · rw [normalizedPath_of_rooted root, cleanPath, start, String.toList_ofList, Paths.clean, norm]
    exact ⟨[], by simp, .inl rfl⟩
  · rename_i some
    have longer : (raw.pathPrefix ++ "/" ++ String.ofList (['/'].intercalate added)).toList =
        '/' :: (rest ++ '/' :: ['/'].intercalate added) := by
      simp [start]
    have parts : Paths.segments true rest ≠ [] := by
      intro none
      rw [none] at norm
      exact named (String.toList_injective norm.symm)
    rw [normalizedPath_of_rooted (rooted_iff.mpr ⟨_, longer⟩), cleanPath, longer, String.toList_ofList, Paths.clean,
      Paths.segments_append_plain (fun s member => (plain s member).1) (fun s member => (plain s member).2) some,
      Paths.intercalate_append parts some, norm]
    exact ⟨'/' :: ['/'].intercalate added, by simp, .inr ⟨_, rfl⟩⟩

/-- All clean requests at or below the path of a compiled route are passed on
exactly when the path is tidy. -/
theorem route_reachable_iff {opts : IngressCompileOptions} {app : App} {route : IngressRoute}
    (compiles : compileRoute opts app route = some raw) (made : newRouteMeta raw = .ok m)
    (given : ingressPath route.path = some path) :
    (∀ added : List Paths.Segment, (∀ s ∈ added, Paths.Plain s ∧ '/' ∉ s) →
      ∃ rel, valeRewriteHandler m (pathBelow path added) = some rel) ↔ Tidy path := by
  obtain rfl := Option.some.inj ((compileRoute_ok compiles).1.symm.trans given)
  obtain ⟨root, trimmed⟩ := ingressPath_ok given
  constructor
  · intro passed
    obtain ⟨rel, sent⟩ := passed [] (by simp)
    exact tidy_of_rewrite made root sent
  · intro tidy added plain
    exact rewrite_of_matches made tidy (compileRoute_strip compiles) (matchesPath_below made tidy root trimmed plain)

end Under

def routeAt (path : String) : IngressRoute := { hostedRoute with path }

def siteAt (path : String) : App := { hostedApp with ingresses := [{ hostedIngress with routes := [routeAt path] }] }

def awayOptions : IngressCompileOptions :=
  { localOptions with
    assignments := some fun key =>
      some { key, metadata := hostedApp.metadata, workload := "web", node := "n2", runtime := .docker, status := .running }
    remoteIngressBaseURL := fun _ => some "http://10.0.0.2:8080" }

def nearRoute (pathPrefix : String) : CompiledRoute := { pathPrefix, upstream := "http://10.0.0.1:80" }

def farRoute (pathPrefix : String) : CompiledRoute := { pathPrefix, upstream := "http://10.0.0.2:8080", stripPrefix := "/" }

theorem forwarded_path_kept_api : PathKept ⟨"api", "/"⟩ ⟨"api", "/api"⟩ "/api/x" := by
  have compiles : compileRoute localOptions (siteAt "/api") (routeAt "/api") = some (nearRoute "/api") := by decide +kernel
  have compilesAway : compileRoute awayOptions (siteAt "/api") (routeAt "/api") = some (farRoute "/api") := by
    decide +kernel
  exact (forwarded_path_kept_iff compiles rfl compilesAway (by decide +kernel) (by decide +kernel) (by decide +kernel)
    (by decide +kernel)).mpr (.inl rfl)

/-- At a root route the empty path becomes the path of a dot, and that is cleaned
again on the way. -/
theorem forwarded_path_changed :
    ¬ ∀ (here there : IngressCompileOptions) (app : App) (route : IngressRoute) (near far : CompiledRoute)
      (home away : RouteMeta) (p : String), compileRoute here app route = some near →
        remoteIngressUpstream here app (trimSpace route.backend.workload) = none →
        compileRoute there app route = some far →
        (remoteIngressUpstream there app (trimSpace route.backend.workload)).isSome = true →
        newRouteMeta near = .ok home → newRouteMeta far = .ok away → (valeRewriteHandler home p).isSome = true →
          PathKept away home p := by
  intro kept
  have changed := (kept localOptions awayOptions (siteAt "/") (routeAt "/") (nearRoute "/") (farRoute "/") ⟨"", "/"⟩ ⟨"", "/"⟩
    "" (by decide +kernel) rfl (by decide +kernel) (by decide +kernel) (by decide +kernel) (by decide +kernel)
    (by decide +kernel)).1
  exact absurd changed (by decide +kernel)

theorem route_reachable_api :
    Tidy "/api" ∧ ∀ added : List Paths.Segment, (∀ s ∈ added, Paths.Plain s ∧ '/' ∉ s) →
      ∃ rel, valeRewriteHandler ⟨"api", "/api"⟩ (pathBelow "/api" added) = some rel := by
  have compiles : compileRoute localOptions (siteAt "/api") (routeAt "/api") = some (nearRoute "/api") := by decide +kernel
  have tidy : Tidy "/api" := by decide +kernel
  exact ⟨tidy, (route_reachable_iff compiles (by decide +kernel) (by decide +kernel)).mpr tidy⟩

/-- The path of the request is cleaned, and that of the route is not. -/
theorem validated_route_unreachable :
    ¬ ∀ (sorter : GraphSorter) (opts : IngressCompileOptions) (app : App), app.validate sorter = .ok () →
      ∀ ing ∈ app.ingresses, ∀ route ∈ ing.routes, ∀ (raw : CompiledRoute) (m : RouteMeta) (path : String),
        compileRoute opts app route = some raw → newRouteMeta raw = .ok m → ingressPath route.path = some path →
          ∀ added : List Paths.Segment, (∀ s ∈ added, Paths.Plain s ∧ '/' ∉ s) →
            ∃ rel, valeRewriteHandler m (pathBelow path added) = some rel := by
  intro passed
  obtain ⟨rel, sent⟩ := passed (Topological.peeling String) localOptions (siteAt "/a//b") (by decide +kernel) _
    List.mem_cons_self _ List.mem_cons_self (nearRoute "/a//b") ⟨"a//b", "/a/b"⟩ "/a//b" (by decide +kernel)
    (by decide +kernel) (by decide +kernel) [] (by simp)
  have unmatched : valeRewriteHandler ⟨"a//b", "/a/b"⟩ (pathBelow "/a//b" []) = none := by decide +kernel
  rw [unmatched] at sent
  cases sent

end Orch
