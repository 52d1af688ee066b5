import Mathlib.Data.String.Basic
import Orch.Ingress.Compile
import Orch.Raft.Documents

namespace Orch

def Ledger.after (commands : List Command) : Ledger :=
  commands.foldl Ledger.update {}

def Validated (sorter : GraphSorter) (commands : List Command) : Prop :=
  ∀ app, .upsertDeployApp app ∈ commands → app.validate sorter = .ok ()

section Order

variable {apps : List App}

theorem sortKeys_foldl (distinct : (apps.map fun app => deployAppSortKey app.metadata).Nodup)
    {keyed : List String × Table App} (fresh : ∀ app ∈ apps, keyed.2.lookup (deployAppSortKey app.metadata) = none) :
    (apps.foldl addDeployAppSortKey keyed).1 = keyed.1 ++ apps.map fun app => deployAppSortKey app.metadata := by
  induction apps generalizing keyed with
  | nil => simp
  | cons app rest ih =>
    rw [List.map_cons, List.nodup_cons] at distinct
    have absent := fresh app List.mem_cons_self
    have later : ∀ other ∈ rest, (addDeployAppSortKey keyed app).2.lookup (deployAppSortKey other.metadata) = none := by
      intro other member
      have apart : deployAppSortKey other.metadata ≠ deployAppSortKey app.metadata := fun same =>
        distinct.1 (same ▸ List.mem_map_of_mem member)
      rw [addDeployAppSortKey, AList.lookup_insert_ne apart]
      exact fresh other (List.mem_cons_of_mem _ member)
    rw [List.foldl_cons, ih distinct.2 later]
    simp [addDeployAppSortKey, absent]

theorem lookup_foldl_frame {key : String} (other : ∀ app ∈ apps, deployAppSortKey app.metadata ≠ key)
    (keyed : List String × Table App) : (apps.foldl addDeployAppSortKey keyed).2.lookup key = keyed.2.lookup key := by
  induction apps generalizing keyed with
  | nil => rfl
  | cons app rest ih =>
    rw [List.foldl_cons, ih fun later member => other later (List.mem_cons_of_mem _ member)]
    exact AList.lookup_insert_ne (other app List.mem_cons_self).symm

theorem lookup_foldl_of_mem (distinct : (apps.map fun app => deployAppSortKey app.metadata).Nodup)
    {keyed : List String × Table App} {app : App} (member : app ∈ apps) :
    (apps.foldl addDeployAppSortKey keyed).2.lookup (deployAppSortKey app.metadata) = some app := by
  induction apps generalizing keyed with
  | nil => cases member
  | cons first rest ih =>
    rw [List.map_cons, List.nodup_cons] at distinct
    rw [List.foldl_cons]
    rcases List.mem_cons.mp member with rfl | later
    · have apart : ∀ other ∈ rest, deployAppSortKey other.metadata ≠ deployAppSortKey app.metadata :=
        fun other inside same => distinct.1 (same ▸ List.mem_map_of_mem inside)
      rw [lookup_foldl_frame apart]
      exact AList.lookup_insert _
    · exact ih distinct.2 later

theorem orderedApps_spec (named : ∀ app ∈ apps, trimSpace app.metadata.name ≠ "")
    (distinct : (apps.map fun app => deployAppSortKey app.metadata).Nodup) :
    (orderedApps apps).Perm apps ∧
      (orderedApps apps).Pairwise fun a b => deployAppSortKey a.metadata < deployAppSortKey b.metadata := by
  have all : apps.filter (fun app => trimSpace app.metadata.name ≠ "") = apps :=
    List.filter_eq_self.mpr fun app member => by simpa using named app member
  have keys : (deployAppsBySortKey apps).1 = apps.map fun app => deployAppSortKey app.metadata := by
    rw [deployAppsBySortKey, all, sortKeys_foldl distinct (by simp)]
    simp
  have found : ∀ app ∈ apps, (deployAppsBySortKey apps).2.lookup (deployAppSortKey app.metadata) = some app := by
    intro app member
    rw [deployAppsBySortKey, all]
    exact lookup_foldl_of_mem distinct member
  have sorted : ∀ key ∈ (deployAppsBySortKey apps).1.insertionSort (· ≤ ·), ∀ app,
      (deployAppsBySortKey apps).2.lookup key = some app → deployAppSortKey app.metadata = key := by
    intro key member app here
    rw [List.mem_insertionSort, keys] at member
    obtain ⟨own, inside, rfl⟩ := List.mem_map.mp member
    rw [found own inside] at here
    cases here
    rfl
  constructor
  · have moved := (List.perm_insertionSort (· ≤ ·) (deployAppsBySortKey apps).1).filterMap
      (deployAppsBySortKey apps).2.lookup
    have back : (deployAppsBySortKey apps).1.filterMap (deployAppsBySortKey apps).2.lookup = apps := by
      rw [keys, List.filterMap_map]
      calc apps.filterMap ((deployAppsBySortKey apps).2.lookup ∘ fun app => deployAppSortKey app.metadata)
          = apps.filterMap some := List.filterMap_congr fun app member => found app member
        _ = apps := List.filterMap_some
    rw [back] at moved
    exact moved
  · have least := List.pairwise_insertionSort (· ≤ · : String → String → Prop) (deployAppsBySortKey apps).1
    have once : ((deployAppsBySortKey apps).1.insertionSort (· ≤ ·)).Nodup :=
      (List.perm_insertionSort _ _).nodup_iff.mpr (keys ▸ distinct)
    rw [orderedApps, List.pairwise_filterMap]
    refine (least.and once).imp_of_mem ?_
    rintro key other here there ⟨le, apart⟩ a first b second
    rw [sorted key here a first, sorted other there b second]
    exact lt_of_le_of_ne le apart

end Order

section Stored

variable {sorter : GraphSorter} {commands : List Command}

theorem Ledger.foldl_holds {f : Ledger}
    (holds : f.Holds fun key app => deployAppMapKey app.metadata = key ∧ app.validate sorter = .ok ())
    (valid : Validated sorter commands) :
    (commands.foldl Ledger.update f).Holds fun key app =>
      deployAppMapKey app.metadata = key ∧ app.validate sorter = .ok () := by
  induction commands generalizing f with
  | nil => exact holds
  | cons command rest ih =>
    refine ih (holds.update ?_) fun app member => valid app (List.mem_cons_of_mem _ member)
    rintro app rfl -
    exact ⟨rfl, (App.validate_decoded app sorter).trans (valid app List.mem_cons_self)⟩

theorem Ledger.after_holds (valid : Validated sorter commands) :
    (Ledger.after commands).Holds fun key app => deployAppMapKey app.metadata = key ∧ app.validate sorter = .ok () :=
  Ledger.foldl_holds ⟨by simp, by simp⟩ valid

theorem Metadata.Clean.trimmed {m : Metadata} (clean : m.Clean) : SlashFree (trimSpace m.nspace) := by
  have free := clean.nspace
  unfold namespaceOrDefault at free
  split at free
  · rename_i blank
    rw [blank]
    exact fun member => by cases member
  · exact free

theorem deployAppMapKey_of_sortKey {m n : Metadata} (left : m.Clean) (right : n.Clean)
    (same : deployAppSortKey m = deployAppSortKey n) : deployAppMapKey m = deployAppMapKey n := by
  have chars := congrArg String.toList same
  simp only [deployAppSortKey, String.toList_append, List.append_assoc, String.reduceToList, List.cons_append,
    List.nil_append] at chars
  obtain ⟨nspaces, names⟩ := slash_inj left.trimmed right.trimmed chars
  rw [String.toList_inj] at nspaces names
  rw [deployAppMapKey, deployAppMapKey, namespaceOrDefault, namespaceOrDefault, nspaces, names]

theorem Ledger.listed_valid (valid : Validated sorter commands) {app : App}
    (member : app ∈ (Ledger.after commands).listDeployApps) : app.validate sorter = .ok () := by
  obtain ⟨key, -, passed⟩ := (Ledger.after_holds valid).listed member
  exact passed

theorem Ledger.sortKeys_nodup (valid : Validated sorter commands) :
    ((Ledger.after commands).listDeployApps.map fun app => deployAppSortKey app.metadata).Nodup := by
  have holds := Ledger.after_holds valid
  have keyed : (Ledger.after commands).Keyed :=
    ⟨fun key app found => (holds.desired key app found).1, fun key revisions found r member =>
      (holds.revised key revisions found r member).1⟩
  have apart := keyed.nodup
  refine List.Nodup.map_on ?_ apart.of_map
  intro a inside b also same
  exact List.inj_on_of_nodup_map apart inside also
    (deployAppMapKey_of_sortKey (App.validate_clean (Ledger.listed_valid valid inside))
      (App.validate_clean (Ledger.listed_valid valid also)) same)

theorem orderedApps_enumeration (valid : Validated sorter commands) {apps : List App}
    (listed : apps.Perm (Ledger.after commands).listDeployApps) :
    (orderedApps apps).Perm apps ∧
      (orderedApps apps).Pairwise fun a b => deployAppSortKey a.metadata < deployAppSortKey b.metadata := by
  refine orderedApps_spec (fun app member => ?_) ?_
  · exact App.validate_name (Ledger.listed_valid valid (listed.subset member))
  · exact (listed.map _).nodup_iff.mpr (Ledger.sortKeys_nodup valid)

/-- The routes come in the order of the texts `namespace/name` of their apps,
whichever way the apps are enumerated. -/
theorem ingress_routes_ordered (valid : Validated sorter commands) {apps others : List App}
    (one : apps.Perm (Ledger.after commands).listDeployApps)
    (two : others.Perm (Ledger.after commands).listDeployApps) (opts : IngressCompileOptions) :
    compileIngressRoutesFromDeploy opts apps = compileIngressRoutesFromDeploy opts others ∧
      ∃ order : List App, order.Perm apps ∧
        order.Pairwise (fun a b => deployAppSortKey a.metadata < deployAppSortKey b.metadata) ∧
        compileIngressRoutesFromDeploy opts apps =
          order.flatMap fun app => app.ingresses.flatMap fun ing => ing.routes.filterMap (compileRoute opts app) := by
  obtain ⟨kept, sorted⟩ := orderedApps_enumeration valid one
  obtain ⟨kept', sorted'⟩ := orderedApps_enumeration valid two
  have same : orderedApps apps = orderedApps others :=
    ((kept.trans (one.trans two.symm)).trans kept'.symm).eq_of_pairwise
      (fun a b _ _ less more => absurd more (lt_asymm less)) sorted sorted'
  exact ⟨by rw [compileIngressRoutesFromDeploy, compileIngressRoutesFromDeploy, same], orderedApps apps, kept, sorted, rfl⟩

def ByNames (m n : Metadata) : Prop :=
  trimSpace m.nspace < trimSpace n.nspace ∨ trimSpace m.nspace = trimSpace n.nspace ∧ trimSpace m.name ≤ trimSpace n.name

instance : DecidableRel ByNames := fun m n => by
  unfold ByNames
  infer_instance

def routedApp (nspace path endpoint : String) : App :=
  { metadata := { name := "web", nspace }
    workloads := [{ imageWorkload "api" "nginx" with endpoints := [{ name := "main", port := 80, protocol := .http }] }]
    ingresses := [{ name := "edge", routes := [{ path, backend := { workload := "api", endpoint } }] }] }

def everywhere : IngressCompileOptions where
  dns := some fun _ _ => some "10.0.0.1"
  assignments := none
  remoteIngressBaseURL := fun _ => none
  localNodeID := "a"

def twoNamespaces : List Command :=
  [.upsertDeployApp (routedApp "a" "/a" "main"), .upsertDeployApp (routedApp "a-b" "/b" "main")]

theorem twoNamespaces_validated : Validated (Topological.peeling String) twoNamespaces := by
  intro app member
  simp only [twoNamespaces, List.mem_cons, Command.upsertDeployApp.injEq, List.not_mem_nil, or_false] at member
  rcases member with rfl | rfl
  · decide +kernel
  · decide +kernel

theorem twoNamespaces_listed :
    (Ledger.after twoNamespaces).listDeployApps = [routedApp "a-b" "/b" "main", routedApp "a" "/a" "main"] := by
  decide +kernel

theorem ingress_routes_ordered_two :
    compileIngressRoutesFromDeploy everywhere [routedApp "a-b" "/b" "main", routedApp "a" "/a" "main"] =
        compileIngressRoutesFromDeploy everywhere [routedApp "a" "/a" "main", routedApp "a-b" "/b" "main"] ∧
      ∃ order : List App, order.Perm [routedApp "a-b" "/b" "main", routedApp "a" "/a" "main"] ∧
        order.Pairwise (fun a b => deployAppSortKey a.metadata < deployAppSortKey b.metadata) ∧
        compileIngressRoutesFromDeploy everywhere [routedApp "a-b" "/b" "main", routedApp "a" "/a" "main"] =
          order.flatMap fun app => app.ingresses.flatMap fun ing => ing.routes.filterMap (compileRoute everywhere app) :=
  ingress_routes_ordered twoNamespaces_validated (.of_eq twoNamespaces_listed.symm)
    ((List.Perm.swap _ _ _).trans (.of_eq twoNamespaces_listed.symm)) everywhere

theorem eq_pair_of_perm {α : Type} {x y : α} : ∀ {l : List α}, l.Perm [x, y] → l = [x, y] ∨ l = [y, x]
  | [], perm => by cases perm.length_eq
  | [_], perm => by cases perm.length_eq
  | [a, b], perm => by
    rcases List.mem_cons.mp (perm.subset List.mem_cons_self) with rfl | second
    · have rest := List.perm_singleton.mp (List.perm_cons a |>.mp perm)
      exact .inl (by rw [rest])
    · obtain rfl := List.mem_singleton.mp second
      have rest := List.perm_singleton.mp (List.perm_cons a |>.mp (perm.trans (List.Perm.swap _ _ _)))
      exact .inr (by rw [rest])
  | _ :: _ :: _ :: _, perm => by cases perm.length_eq

/-- The text `a-b/web` comes before `a/web`, although the namespace `a` comes
before `a-b`. -/
theorem ingress_routes_not_by_names :
    ¬ ∀ (sorter : GraphSorter) (commands : List Command), Validated sorter commands → ∀ apps : List App,
      apps.Perm (Ledger.after commands).listDeployApps → ∀ opts : IngressCompileOptions,
        ∃ order : List App, order.Perm apps ∧ order.Pairwise (fun a b => ByNames a.metadata b.metadata) ∧
          compileIngressRoutesFromDeploy opts apps =
            order.flatMap fun app => app.ingresses.flatMap fun ing => ing.routes.filterMap (compileRoute opts app) := by
  intro ordered
  obtain ⟨order, kept, sorted, compiled⟩ := ordered _ twoNamespaces twoNamespaces_validated
    [routedApp "a-b" "/b" "main", routedApp "a" "/a" "main"] (.of_eq twoNamespaces_listed.symm) everywhere
  rcases eq_pair_of_perm kept with rfl | rfl
  · exact absurd sorted (by decide +kernel)
  · exact absurd compiled (by decide +kernel)

end Stored

section Emitted

variable {opts : IngressCompileOptions} {app : App} {route : IngressRoute}

/-- The workload has an address: the listener of the node that runs it, or the
one that a lookup gives. -/
def Resolvable (opts : IngressCompileOptions) (app : App) (workloadName : String) : Prop :=
  (remoteIngressUpstream opts app workloadName).isSome = true ∨
    ∃ lookup ∈ opts.dns, (lookup (trimSpace app.metadata.nspace) workloadName).isSome = true

/-- The backend names an endpoint of its workload, and the first endpoint of that
name speaks HTTP. -/
def IngressRoute.Backed (app : App) (route : IngressRoute) : Prop :=
  ∃ x ∈ app.workloads, x.key = trimSpace route.backend.workload ∧
    ∃ e, (x.endpoints.find? fun ep => trimSpace ep.name = trimSpace route.backend.endpoint) = some e ∧ e.protocol = .http

theorem workloadTarget_isSome {name : String} (resolvable : Resolvable opts app name) (port : Int) :
    ∃ target, workloadTarget opts app name port = some target := by
  unfold workloadTarget
  split
  · exact ⟨_, rfl⟩
  · rename_i none
    rcases resolvable with remote | ⟨lookup, given, found⟩
    · rw [none] at remote
      cases remote
    · obtain ⟨ip, found⟩ := Option.isSome_iff_exists.mp found
      have known : opts.dns = some lookup := given
      rw [localWorkloadUpstream, known]
      simp only [found]
      exact ⟨_, rfl⟩

theorem lastWorkloadNamed_eq_some_iff {sorter : GraphSorter} (valid : app.validate sorter = .ok ()) {name : String}
    {x : Workload} : lastWorkloadNamed app.workloads name = some x ↔ x ∈ app.workloads ∧ x.key = name := by
  obtain ⟨order, ordered⟩ := App.validate_ordered valid
  have distinct := (App.workloadsInDependencyOrder_ok ordered).2.1
  constructor
  · intro found
    have same := List.find?_some found
    exact ⟨List.mem_reverse.mp (List.mem_of_find?_eq_some found), eq_of_beq same⟩
  · rintro ⟨member, rfl⟩
    refine workloadNamed_key ?_ (List.mem_reverse.mpr member)
    rw [List.map_reverse]
    exact List.nodup_reverse.mpr distinct

theorem endpointHTTPPort_isSome_iff {x : Workload} (ports : ∀ e ∈ x.endpoints, e.validate = .ok ())
    (name : String) :
    (∃ port, endpointHTTPPort x name = some port) ↔
      ∃ e, (x.endpoints.find? fun ep => trimSpace ep.name = name) = some e ∧ e.protocol = .http := by
  unfold endpointHTTPPort
  cases found : x.endpoints.find? fun ep => trimSpace ep.name = name with
  | none => simp
  | some e =>
    have valid := ports e (List.mem_of_find?_eq_some found)
    have positive := (Endpoint.validate_port valid).1
    have known := Endpoint.validate_protocol valid
    simp only [Option.some.injEq, exists_eq_left']
    by_cases http : e.protocol = .http
    · simp [http]
      omega
    · rw [if_pos ⟨known, http⟩]
      simp [http]

theorem compileRoute_isSome_iff {sorter : GraphSorter} (valid : app.validate sorter = .ok ()) {ing : Ingress}
    (member : ing ∈ app.ingresses) (inside : route ∈ ing.routes)
    (resolvable : Resolvable opts app (trimSpace route.backend.workload)) :
    (∃ compiled, compileRoute opts app route = some compiled) ↔ route.Backed app := by
  have path := (App.validate_route valid member inside).1
  have given : ∃ path, ingressPath route.path = some path := by
    unfold ingressPath
    simp only [if_neg path]
    split <;> exact ⟨_, rfl⟩
  obtain ⟨path, given⟩ := given
  unfold compileRoute IngressRoute.Backed
  simp only [given]
  cases found : lastWorkloadNamed app.workloads (trimSpace route.backend.workload) with
  | none =>
    simp only [reduceCtorEq, exists_false, false_iff]
    rintro ⟨x, within, named, -⟩
    have present := (lastWorkloadNamed_eq_some_iff valid).mpr ⟨within, named⟩
    rw [found] at present
    cases present
  | some x =>
    obtain ⟨within, named⟩ := (lastWorkloadNamed_eq_some_iff valid).mp found
    have ports := endpointHTTPPort_isSome_iff (fun e endpoint => App.validate_endpoint valid within endpoint)
      (trimSpace route.backend.endpoint)
    have unique : ∀ y ∈ app.workloads, y.key = trimSpace route.backend.workload → y = x := by
      intro y also same
      have again := (lastWorkloadNamed_eq_some_iff valid).mpr ⟨also, same⟩
      rw [found] at again
      exact (Option.some.inj again).symm
    have backed : (∃ y ∈ app.workloads, y.key = trimSpace route.backend.workload ∧
        ∃ e, (y.endpoints.find? fun ep => trimSpace ep.name = trimSpace route.backend.endpoint) = some e ∧
          e.protocol = .http) ↔ ∃ port, endpointHTTPPort x (trimSpace route.backend.endpoint) = some port := by
      rw [ports]
      constructor
      · rintro ⟨y, also, same, http⟩
        exact unique y also same ▸ http
      · exact fun http => ⟨x, within, named, http⟩
    rw [backed]
    dsimp only
    cases endpointHTTPPort x (trimSpace route.backend.endpoint) with
    | none => simp
    | some port =>
      obtain ⟨target, resolved⟩ := workloadTarget_isSome resolvable port
      simp [resolved]

/-- Of a validated app a route whose workload has an address is emitted exactly
when its endpoint is there and speaks HTTP. -/
theorem validated_route_emitted_iff {sorter : GraphSorter} {commands : List Command} (valid : Validated sorter commands)
    {apps : List App} (listed : apps.Perm (Ledger.after commands).listDeployApps) (member : app ∈ apps) {ing : Ingress}
    (declared : ing ∈ app.ingresses) (inside : route ∈ ing.routes)
    (resolvable : Resolvable opts app (trimSpace route.backend.workload)) :
    (∃ compiled, compileRoute opts app route = some compiled ∧ compiled ∈ compileIngressRoutesFromDeploy opts apps) ↔
      route.Backed app := by
  have passed := Ledger.listed_valid valid (listed.subset member)
  rw [← compileRoute_isSome_iff passed declared inside resolvable]
  refine ⟨fun ⟨compiled, emitted, _⟩ => ⟨compiled, emitted⟩, fun ⟨compiled, emitted⟩ => ⟨compiled, emitted, ?_⟩⟩
  have kept := (orderedApps_enumeration valid listed).1.mem_iff.mpr member
  refine List.mem_flatMap.mpr ⟨app, kept, List.mem_flatMap.mpr ⟨ing, declared, ?_⟩⟩
  exact List.mem_filterMap.mpr ⟨route, inside, emitted⟩

def runningEverywhere : IngressCompileOptions :=
  { everywhere with
    assignments := some fun key =>
      some { key, metadata := { name := "web" }, workload := "api", node := "a", runtime := .docker, status := .running } }

theorem routedApp_validated (endpoint : String)
    (valid : (routedApp "a" "/a" endpoint).validate (Topological.peeling String) = .ok ()) :
    Validated (Topological.peeling String) [.upsertDeployApp (routedApp "a" "/a" endpoint)] := by
  intro app member
  simp only [List.mem_singleton, Command.upsertDeployApp.injEq] at member
  exact member ▸ valid

def backendAt (endpoint : String) : IngressRoute := { path := "/a", backend := { workload := "api", endpoint } }

theorem validated_route_emitted_main :
    (∃ compiled, compileRoute runningEverywhere (routedApp "a" "/a" "main") (backendAt "main") = some compiled ∧
      compiled ∈ compileIngressRoutesFromDeploy runningEverywhere [routedApp "a" "/a" "main"]) := by
  have declared : { name := "edge", routes := [backendAt "main"] } ∈ (routedApp "a" "/a" "main").ingresses :=
    List.mem_cons_self
  refine (validated_route_emitted_iff (routedApp_validated "main" (by decide +kernel))
    (.of_eq (by decide +kernel)) List.mem_cons_self declared List.mem_cons_self (.inr ⟨_, rfl, rfl⟩)).mpr ?_
  exact ⟨_, List.mem_cons_self, by decide +kernel, { name := "main", port := 80, protocol := .http }, by decide +kernel, rfl⟩

/-- Validation does not look for the endpoint. -/
theorem validated_route_skipped :
    ¬ ∀ (sorter : GraphSorter) (commands : List Command), Validated sorter commands → ∀ apps : List App,
      apps.Perm (Ledger.after commands).listDeployApps → ∀ app ∈ apps, ∀ ing ∈ app.ingresses, ∀ route ∈ ing.routes,
        ∀ opts : IngressCompileOptions, (runningAssignment opts app (trimSpace route.backend.workload)).isSome = true →
          Resolvable opts app (trimSpace route.backend.workload) →
            ∃ compiled, compileRoute opts app route = some compiled ∧ compiled ∈ compileIngressRoutesFromDeploy opts apps := by
  intro emitted
  obtain ⟨compiled, given, -⟩ := emitted _ _ (routedApp_validated "admin" (by decide +kernel))
    [routedApp "a" "/a" "admin"] (.of_eq (by decide +kernel)) _ List.mem_cons_self _ List.mem_cons_self
    (backendAt "admin") List.mem_cons_self runningEverywhere (by decide +kernel) (.inr ⟨_, rfl, rfl⟩)
  have skipped : compileRoute runningEverywhere (routedApp "a" "/a" "admin") (backendAt "admin") = none := by
    decide +kernel
  rw [skipped] at given
  cases given

end Emitted

end Orch
