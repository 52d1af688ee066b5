import Orch.Raft.Fsm
import Orch.Std.Parse
import Mathlib.Data.List.Sort

namespace Orch

/-- `strings.ToLower` of a text in ASCII. -/
def lowerText (s : String) : String := String.ofList (s.toList.map toLower)

def trimDots (s : String) : String :=
  String.ofList ((s.toList.dropWhile (· == '.')).rdropWhile (· == '.'))

/-- A resource record of the DNS server. -/
structure DnsRecord where
  zone : String
  name : String
  ttl : Nat
  rrType : Nat
  data : String
deriving DecidableEq

/-- What the service takes from the DNS server: the form of a record and what
identifies it, and a store that may refuse to save or to delete. -/
structure DnsLibrary where
  normalizeRecord : DnsRecord → Except Failure DnsRecord
  key : DnsRecord → String
  Store : Type
  Choice : Type
  saveRecord : Choice → Store → DnsRecord → Store × Check
  deleteRecord : Choice → Store → DnsRecord → Store × Check

structure DnsService (lib : DnsLibrary) where
  enabled : Bool
  zone : String
  store : Option lib.Store
  workloadRecords : Table DnsRecord := ∅

def workloadRecordKey (nspace workloadName : String) : String :=
  lowerText (namespaceOrDefault nspace) ++ "/" ++ lowerText (trimSpace workloadName)

def workloadServiceFQDN (nspace workloadName zone : String) : String :=
  lowerText (trimSpace workloadName) ++ "." ++ lowerText (namespaceOrDefault nspace) ++ ".svc." ++ trimDots (lowerText zone)

def typeA : Nat := 1

def workloadRecord (zone nspace workloadName ipv4 : String) : DnsRecord where
  zone
  name := workloadServiceFQDN nspace workloadName zone
  ttl := 60
  rrType := typeA
  data := trimSpace ipv4

namespace DnsService

variable {lib : DnsLibrary}

def upsertWorkloadA (s : DnsService lib) (saving deleting : lib.Choice) (nspace workloadName ipv4 : String) :
    DnsService lib × Check :=
  match s.enabled, s.store with
  | false, _ | _, none => (s, .pass)
  | true, some store =>
    if trimSpace ipv4 = "" then (s, .fail "workload %q: empty ipv4" [.text workloadName])
    else
      match lib.normalizeRecord (workloadRecord s.zone nspace workloadName ipv4) with
      | .error err => (s, .error (.wrapf err "dns workload record"))
      | .ok norm =>
        let key := workloadRecordKey nspace workloadName
        match lib.saveRecord saving store norm with
        | (store, .error err) => ({ s with store := some store }, .error (.wrapf err "save workload record"))
        | (store, .ok _) =>
          -- A stale record that cannot be deleted is only logged.
          let store :=
            match s.workloadRecords.lookup key with
            | some prev => if lib.key prev ≠ lib.key norm then (lib.deleteRecord deleting store prev).1 else store
            | none => store
          ({ s with store := some store, workloadRecords := s.workloadRecords.insert key norm }, .pass)

def removeWorkloadA (s : DnsService lib) (deleting : lib.Choice) (nspace workloadName : String) : DnsService lib × Check :=
  match s.enabled, s.store with
  | false, _ | _, none => (s, .pass)
  | true, some store =>
    let key := workloadRecordKey nspace workloadName
    match s.workloadRecords.lookup key with
    | none => (s, .pass)
    | some prev =>
      match lib.deleteRecord deleting store prev with
      | (store, .error err) => ({ s with store := some store }, .error (.wrapf err "delete workload record"))
      | (store, .ok _) => ({ s with store := some store, workloadRecords := s.workloadRecords.erase key }, .pass)

end DnsService

end Orch
