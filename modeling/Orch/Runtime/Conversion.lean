import Orch.Runtime.Process
import Orch.Runtime.RunConfig

namespace Orch

/-- The directory of a runtime, with the data directory that the environment
gives as its default. -/
def rootOrDefault (dataRoot root : String) (runtime : RuntimeKind) : String :=
  if trimSpace root ≠ "" then cleanPath root else joinPath [dataRoot, "runtime", runtime.text]

namespace Firecracker

def defaultBinaryPath : String := "firecracker"

def defaultBootArgs : String := "console=ttyS0 reboot=k panic=1 pci=off root=/dev/vda"

def defaultVCPUCount : Int := 1

def defaultMemSizeMiB : Int := 128

structure NetworkConfig where
  interfaceID : String
  tapDeviceName : String
  guestMAC : String
  allowMMDSRequests : Bool
deriving DecidableEq, Repr

structure VMConfig where
  id : String
  binaryPath : String
  apiSocket : String
  kernelImage : String
  rootfsPath : String
  rootfsReadOnly : Bool
  bootArgs : String
  vcpuCount : Int
  memSizeMiB : Int
  network : Option NetworkConfig
  stdoutPath : String
  stderrPath : String
deriving DecidableEq, Repr

def firecrackerNetworkConfig (opts : FirecrackerOptions) : Option NetworkConfig :=
  let tap := trimSpace opts.tapDeviceName
  if tap = "" ∧ trimSpace opts.networkInterfaceID = "" ∧ trimSpace opts.guestMAC = "" ∧ !opts.allowMMDSRequests then none
  else
    let id := trimSpace opts.networkInterfaceID
    some {
      interfaceID := if id = "" then "eth0" else id
      tapDeviceName := tap
      guestMAC := trimSpace opts.guestMAC
      allowMMDSRequests := opts.allowMMDSRequests }

def defaultBootArgsForRootfs (readOnly : Bool) : String :=
  if readOnly then defaultBootArgs ++ " ro" else defaultBootArgs ++ " rw"

def baseVMConfig (root : String) (metadata : Metadata) (w : Workload) (opts : FirecrackerOptions) : VMConfig :=
  let id := nameBase metadata w.name
  { id
    binaryPath := trimSpace opts.binaryPath
    apiSocket := trimSpace opts.socketPath
    kernelImage := trimSpace opts.kernelImagePath
    rootfsPath := trimSpace opts.rootfsPath
    rootfsReadOnly := opts.rootfsReadOnly
    bootArgs := trimSpace opts.bootArgs
    vcpuCount := opts.vcpuCount
    memSizeMiB := opts.memSizeMiB
    network := firecrackerNetworkConfig opts
    stdoutPath := joinPath [root, "logs", id ++ ".stdout.log"]
    stderrPath := joinPath [root, "logs", id ++ ".stderr.log"] }

def applyVMConfigDefaults (root : String) (cfg : VMConfig) : VMConfig :=
  { cfg with
    binaryPath := if cfg.binaryPath = "" then defaultBinaryPath else cfg.binaryPath
    apiSocket := if cfg.apiSocket = "" then joinPath [root, "sockets", cfg.id ++ ".sock"] else cfg.apiSocket
    bootArgs := if cfg.bootArgs = "" then defaultBootArgsForRootfs cfg.rootfsReadOnly else cfg.bootArgs
    vcpuCount := if cfg.vcpuCount ≤ 0 then defaultVCPUCount else cfg.vcpuCount
    memSizeMiB := if cfg.memSizeMiB ≤ 0 then defaultMemSizeMiB else cfg.memSizeMiB }

def validateVMConfig (workloadName : String) (cfg : VMConfig) : Check :=
  if cfg.kernelImage = "" then .fail "workload %q: kernel_image_path is required" [.text workloadName]
  else if cfg.rootfsPath = "" then .fail "workload %q: rootfs_path is required" [.text workloadName]
  else if ∃ network ∈ cfg.network, network.tapDeviceName = "" then
    .fail "workload %q: tap_device_name is required when firecracker network is configured" [.text workloadName]
  else .pass

/-- Converts a workload into the configuration of a machine. The root is the
one `rootOrDefault` gives. -/
def buildConfig (root : String) (metadata : Metadata) (w : Workload) : Except Failure VMConfig :=
  match ProcessProvider.rejectUnsupportedMounts .firecracker w with
  | .error err => .error (.wrapf err "validate workload mounts")
  | .ok _ =>
    match w.run.options.firecracker with
    | none => .error (.errorf "workload %q: run.runtimeOptions.firecracker is required" [.text w.name])
    | some opts =>
      let cfg := applyVMConfigDefaults root (baseVMConfig root metadata w opts)
      match validateVMConfig w.name cfg with
      | .error err => .error err
      | .ok _ => .ok cfg

end Firecracker

/-- The directories that a node gives its runtimes. -/
structure RuntimeRoots where
  dataRoot : String
  containerd : String := ""
  systemd : String := ""
  firecracker : String := ""

/-- The conversion that a runtime makes before it starts anything succeeds. -/
def Workload.Converts (roots : RuntimeRoots) (metadata : Metadata) (w : Workload) : Prop :=
  match w.runtime with
  | .docker | .podman => ∃ mounts, localMounts "" metadata w = .ok mounts
  | .containerd => ∃ mounts, localMounts (rootOrDefault roots.dataRoot roots.containerd .containerd) metadata w = .ok mounts
  | .systemd => ∃ mounts, localMounts (rootOrDefault roots.dataRoot roots.systemd .systemd) metadata w = .ok mounts
  | .process =>
    (ProcessProvider.processCommand w.run).isSome = true ∧ ProcessProvider.rejectUnsupportedMounts .process w = .ok ()
  | .firecracker =>
    ∃ cfg, Firecracker.buildConfig (rootOrDefault roots.dataRoot roots.firecracker .firecracker) metadata w = .ok cfg
  | .windowsService | .other _ => True

/-- What validation does not check and the conversion needs. -/
def Workload.Mountable (w : Workload) : Prop :=
  match w.runtime with
  | .docker | .podman | .containerd | .systemd => ∀ mount ∈ w.mounts, rooted (trimSpace mount.target) = true
  | .process => w.mounts = [] ∧ ∀ exe ∈ (w.run.exec.command.getD []).head?, trimSpace exe ≠ ""
  | .firecracker => w.mounts = []
  | .windowsService | .other _ => True

theorem cleanMountTarget_ok_iff {target : String} (given : trimSpace target ≠ "") :
    (∃ cleaned, cleanMountTarget target = .ok cleaned) ↔ rooted (trimSpace target) = true := by
  unfold cleanMountTarget
  simp only [if_neg given]
  split
  · rename_i root
    simp [root]
  · rename_i relative
    simp [relative]

variable {root : String} {metadata : Metadata}

theorem localMount_ok_iff {mount : Mount} (named : trimSpace mount.volume ≠ "") (given : trimSpace mount.target ≠ "") :
    (∃ m, localMount root metadata mount = .ok m) ↔ rooted (trimSpace mount.target) = true := by
  rw [← cleanMountTarget_ok_iff given]
  unfold localMount
  simp only [if_neg named]
  constructor
  · rintro ⟨m, converted⟩
    obtain ⟨target, cleaned, -⟩ := Except.bind_ok converted
    exact ⟨target, cleaned⟩
  · rintro ⟨target, cleaned⟩
    rw [cleaned]
    exact ⟨_, rfl⟩

theorem localMountsFrom_ok_iff {name : String} :
    ∀ {i : Nat} {mounts : List Mount},
      (∃ converted, localMountsFrom root metadata name i mounts = .ok converted) ↔
        ∀ mount ∈ mounts, ∃ m, localMount root metadata mount = .ok m
  | _, [] => by simp [localMountsFrom]
  | i, mount :: rest => by
    rw [List.forall_mem_cons, ← localMountsFrom_ok_iff (i := i + 1), localMountsFrom]
    cases here : localMount root metadata mount with
    | error err => simp
    | ok m =>
      cases later : localMountsFrom root metadata name (i + 1) rest with
      | error err => simp [bind, Except.bind]
      | ok converted => simp [bind, Except.bind, pure, Except.pure]

variable {w : Workload}

theorem localMounts_ok_iff (present : ∀ mount ∈ w.mounts, trimSpace mount.volume ≠ "" ∧ trimSpace mount.target ≠ "") :
    (∃ mounts, localMounts root metadata w = .ok mounts) ↔ ∀ mount ∈ w.mounts, rooted (trimSpace mount.target) = true := by
  rw [localMounts, localMountsFrom_ok_iff]
  exact forall₂_congr fun mount member => localMount_ok_iff (present mount member).1 (present mount member).2

theorem rejectUnsupportedMounts_ok_iff (runtime : RuntimeKind) :
    ProcessProvider.rejectUnsupportedMounts runtime w = .ok () ↔ w.mounts = [] := by
  unfold ProcessProvider.rejectUnsupportedMounts
  split
  · rename_i none
    simp [none, Check.pass]
  · rename_i some
    simp [some, Check.fail]

theorem processCommand_isSome_iff (valid : w.validateExecRuntime = .ok ()) :
    (ProcessProvider.processCommand w.run).isSome = true ↔
      ∀ exe ∈ (w.run.exec.command.getD []).head?, trimSpace exe ≠ "" := by
  unfold Workload.validateExecRuntime at valid
  unfold ProcessProvider.processCommand
  split
  · rename_i exe args command
    rw [command]
    split
    · rename_i blank
      simp [blank]
    · rename_i present
      simp [present]
  · rename_i command
    rw [command] at valid ⊢
    split at valid
    · cases valid
    · rename_i path
      simp only [List.isEmpty_nil, true_and] at path
      simp [path]

theorem requireText_ok {s format : String} (passed : requireText s format = .ok ()) : trimSpace s ≠ "" := by
  unfold requireText at passed
  split at passed
  · cases passed
  · assumption

theorem firecrackerNetworkConfig_tap {opts : FirecrackerOptions} (valid : validateFirecrackerNetwork opts = .ok ())
    {network : Firecracker.NetworkConfig} (member : network ∈ Firecracker.firecrackerNetworkConfig opts) :
    network.tapDeviceName ≠ "" := by
  unfold Firecracker.firecrackerNetworkConfig at member
  dsimp only at member
  split at member
  · cases member
  · rename_i configured
    cases member
    intro missing
    simp only at missing
    unfold validateFirecrackerNetwork at valid
    have fields : hasFirecrackerNetworkFields opts = true := by
      by_contra none
      simp only [hasFirecrackerNetworkFields, Bool.or_eq_true, bne_iff_ne, ne_eq, not_or, not_not] at none
      exact configured ⟨missing, none.1.1.1, none.1.2, by simpa using none.2⟩
    rw [fields, if_neg (by simp), if_pos missing] at valid
    cases valid

theorem validateVMConfig_ok {workloadName : String} {cfg : Firecracker.VMConfig} (kernel : cfg.kernelImage ≠ "")
    (rootfs : cfg.rootfsPath ≠ "") (tap : ∀ network ∈ cfg.network, network.tapDeviceName ≠ "") :
    Firecracker.validateVMConfig workloadName cfg = .ok () := by
  have configured : ¬ ∃ network ∈ cfg.network, network.tapDeviceName = "" := fun ⟨network, member, missing⟩ =>
    tap network member missing
  unfold Firecracker.validateVMConfig
  rw [if_neg kernel, if_neg rootfs, if_neg configured]
  rfl

theorem buildConfig_ok_iff (valid : w.validateFirecrackerRuntime = .ok ()) :
    (∃ cfg, Firecracker.buildConfig root metadata w = .ok cfg) ↔ w.mounts = [] := by
  rw [← rejectUnsupportedMounts_ok_iff .firecracker]
  unfold Workload.validateFirecrackerRuntime at valid
  unfold Firecracker.buildConfig
  cases rejected : ProcessProvider.rejectUnsupportedMounts .firecracker w with
  | error err => simp
  | ok =>
    split at valid
    · cases valid
    · rename_i opts given
      obtain ⟨_, kernel, valid⟩ := Except.bind_ok valid
      obtain ⟨_, rootfs, valid⟩ := Except.bind_ok valid
      obtain ⟨_, network, -⟩ := Except.bind_ok valid
      have passed : Firecracker.validateVMConfig w.name
          (Firecracker.applyVMConfigDefaults root (Firecracker.baseVMConfig root metadata w opts)) = .ok () :=
        validateVMConfig_ok (requireText_ok kernel) (requireText_ok rootfs) fun net member =>
          firecrackerNetworkConfig_tap network member
      simp [given, passed]

/-- A workload of a validated app converts exactly when it has what validation
does not check. -/
theorem validated_converts_iff {app : App} {sorter : GraphSorter} (valid : app.validate sorter = .ok ()) {x : Workload}
    (member : x ∈ app.workloads) (roots : RuntimeRoots) : x.Converts roots app.metadata ↔ x.Mountable := by
  have checked := App.validate_workload valid member
  have run := checked.run
  have mounts : ∀ root, (∃ mounts, localMounts root app.metadata x = .ok mounts) ↔
      ∀ mount ∈ x.mounts, rooted (trimSpace mount.target) = true := fun root =>
    localMounts_ok_iff fun mount inside => App.validate_mount valid member inside
  unfold Workload.validateRunForRuntime at run
  unfold Workload.Converts Workload.Mountable
  cases kind : x.runtime with
  | docker => exact mounts _
  | podman => exact mounts _
  | containerd => exact mounts _
  | systemd => exact mounts _
  | process =>
    rw [kind] at run
    simp only
    rw [processCommand_isSome_iff run, rejectUnsupportedMounts_ok_iff, and_comm]
  | firecracker =>
    rw [kind] at run
    exact buildConfig_ok_iff run
  | windowsService => rfl
  | other text => rfl

theorem validated_converts_data :
    let x := { imageWorkload "api" "nginx" with mounts := [{ volume := "data", target := "/data" }] }
    let app : App := { metadata := { name := "web" }, workloads := [x] }
    app.validate (Topological.peeling String) = .ok () ∧ x.Converts ⟨"/var/lib/orch", "", "", ""⟩ app.metadata := by
  intro x app
  have valid : app.validate (Topological.peeling String) = .ok () := by decide +kernel
  have rooted : ∀ mount ∈ x.mounts, rooted (trimSpace mount.target) = true := by decide +kernel
  exact ⟨valid, (validated_converts_iff valid List.mem_cons_self _).mpr rooted⟩

def relativeMountApp : App :=
  { metadata := { name := "web" }
    workloads := [{ imageWorkload "api" "nginx" with mounts := [{ volume := "data", target := "data" }] }] }

theorem validated_not_converted :
    ¬ ∀ (app : App) (sorter : GraphSorter), app.validate sorter = .ok () → ∀ x ∈ app.workloads,
      ∀ roots : RuntimeRoots, x.Converts roots app.metadata := by
  intro converts
  obtain ⟨mounts, converted⟩ := converts relativeMountApp (Topological.peeling String) (by decide +kernel) _
    List.mem_cons_self ⟨"/var/lib/orch", "", "", ""⟩
  have failed : ∃ err, localMounts "" relativeMountApp.metadata
      { imageWorkload "api" "nginx" with mounts := [{ volume := "data", target := "data" }] } = .error err :=
    ⟨.wrapf (.errorf "target must be absolute: %q" [.text "data"]) "workload %s mounts[%d]" [.text "api", .number 0],
      by decide +kernel⟩
  obtain ⟨err, refused⟩ := failed
  rw [refused] at converted
  cases converted

end Orch
