import Mathlib.Data.List.Nodup
import OpencodeRemote.Concurrency.Search
import OpencodeRemote.Plugin.Ssh

/-! # The search for a local port

`ensureTunnel` goes once through the configured range, from a hashed port on and around its
end. An attempt never throws, so the search is the `firstSuccess` of its attempts.
-/

namespace OpencodeRemote.Plugin

open Concurrency

namespace Remote

variable {α β : Type}

/-- The function returns, whatever the answers are. -/
def Total (f : Remote α) : Prop := f.run.Returns fun outcome => ∃ a, outcome = .ok a

theorem total_pure (a : α) : Total (pure a) := ⟨a, rfl⟩

theorem total_call (o : RemoteOp) : Total (call o) := fun r => ⟨r, rfl⟩

theorem Total.bind {f : Remote α} {g : α → Remote β} (first : Total f) (next : ∀ a, Total (g a)) :
    Total (f >>= g) := by
  refine Program.returns_bind.mpr (Program.Returns.mono first fun outcome returned => ?_)
  obtain ⟨a, rfl⟩ := returned
  exact next a

theorem total_tryCatch (f : Remote α) {handler : String → Remote α} (handled : ∀ e, Total (handler e)) :
    Total (tryCatch f handler) := by
  refine Program.returns_bind.mpr (Program.returns_of_forall (fun outcome => ?_) f.run)
  cases outcome with
  | ok a => exact ⟨a, rfl⟩
  | error e => exact handled e

theorem Total.await {f : Remote α} (total : Total f) : Total (await f) :=
  Program.returns_bind.mpr (Program.Returns.mono total fun _ returned _ => returned)

theorem Total.ite {p : Prop} [Decidable p] {f g : Remote α} (yes : Total f) (no : Total g) :
    Total (if p then f else g) := by
  split
  · exact yes
  · exact no

end Remote

namespace SSHManager

open Remote

variable (manager : SSHManager)

/-! ## One attempt -/

theorem total_isPortReachable (localPort : Int) : Total (isPortReachable localPort) :=
  total_tryCatch _ fun _ => total_pure false

theorem total_identityArgs (identityFile : Option String) : Total (identityArgs identityFile) := by
  unfold identityArgs
  split
  · exact total_pure _
  · exact total_pure _
  · exact (total_call _).bind fun _ => .ite (total_pure _) (total_pure _)

theorem total_tryStartTunnel (sshConfig : SSHConfig) (identityFile : Option String) (localPort : Int)
    (remotePort : Nat) : Total (manager.tryStartTunnel sshConfig identityFile localPort remotePort) := by
  refine (total_isPortReachable localPort).await.bind fun reachable => .ite (total_pure _) ?_
  refine (total_identityArgs identityFile).bind fun identity => (total_call _).bind fun child => ?_
  refine total_tryCatch _ fun _ => ?_
  split
  · exact total_pure _
  · exact (total_tryCatch _ fun _ => total_pure ()).bind fun _ => total_pure _

/-- The pid of a tunnel, if one was opened. -/
def opened : Except String (Option Nat) → Option Nat
  | .ok tunnelPID => truthyPid tunnelPID
  | .error _ => none

/-- What one attempt comes to. -/
def attempt (sshConfig : SSHConfig) (identityFile : Option String) (remotePort : Nat) (localPort : Int) :
    Program RemoteOp RemoteRes (Option Nat) :=
  (await (manager.tryStartTunnel sshConfig identityFile localPort remotePort)).run.bind fun outcome =>
    .pure (opened outcome)

/-! ## All attempts -/

/-- The ports in the order in which they are tried. -/
def ports (start stop initialPort : Int) (attempt remaining : Nat) : List Int :=
  (List.range' attempt remaining).map fun (attempt : Nat) =>
    start + Int.tmod (initialPort - start + attempt) (stop - start + 1)

/-- What `ensureTunnel` makes of its search. -/
def settled (start stop : Int) : Option (Int × Nat) → Except String (Int × Option Nat)
  | some (localPort, pid) => .ok (localPort, some pid)
  | none => .error s!"Unable to establish SSH tunnel: no available local port in range {start}-{stop}"

theorem ensureTunnelLoop_eq_firstSuccess (sshConfig : SSHConfig) (identityFile : Option String)
    (remotePort : Nat) {start stop : Int} (range : manager.config.tunnel.localPortRange = (start, stop))
    (initialPort : Int) (attempt remaining : Nat) :
    (manager.ensureTunnelLoop sshConfig identityFile remotePort initialPort attempt remaining).run =
      (Program.firstSuccess (manager.attempt sshConfig identityFile remotePort)
        (ports start stop initialPort attempt remaining)).bind fun result =>
          .pure (settled start stop result) := by
  induction remaining generalizing attempt with
  | zero =>
      rw [ensureTunnelLoop, range]
      rfl
  | succ remaining ih =>
      rw [ensureTunnelLoop, range]
      let port := start + Int.tmod (initialPort - start + attempt) (stop - start + 1)
      have total := (manager.total_tryStartTunnel sshConfig identityFile port remotePort).await
      have split : ports start stop initialPort attempt (remaining + 1) =
          port :: ports start stop initialPort (attempt + 1) remaining := rfl
      rw [split, Program.firstSuccess, SSHManager.attempt, Program.bind_assoc, Program.bind_assoc]
      refine Program.bind_congr_of_returns (Program.Returns.mono total fun outcome returned => ?_)
      obtain ⟨tunnelPID, rfl⟩ := returned
      change ExceptT.run _ = _
      dsimp only [ExceptT.bindCont, opened, Program.pure_bind]
      cases truthyPid tunnelPID with
      | some pid => rfl
      | none => exact ih (attempt + 1)

section Range

variable {start stop initialPort : Int} (nonempty : start ≤ stop) (first : start ≤ initialPort)

include nonempty first

theorem mem_ports_iff (port : Int) :
    port ∈ ports start stop initialPort 0 (stop - start + 1).toNat ↔ start ≤ port ∧ port ≤ stop := by
  have span : 0 < stop - start + 1 := by omega
  simp only [ports, List.mem_map, List.mem_range'_1]
  constructor
  · rintro ⟨attempt, -, rfl⟩
    rw [Int.tmod_eq_emod_of_nonneg (by omega)]
    have low := Int.emod_nonneg (initialPort - start + attempt) (Int.ne_of_gt span)
    have high := Int.emod_lt_of_pos (initialPort - start + attempt) span
    omega
  · intro inside
    have low := Int.emod_nonneg (port - initialPort) (Int.ne_of_gt span)
    have high := Int.emod_lt_of_pos (port - initialPort) span
    refine ⟨((port - initialPort) % (stop - start + 1)).toNat, by omega, ?_⟩
    rw [Int.toNat_of_nonneg low, Int.tmod_eq_emod_of_nonneg (by omega), Int.add_emod_emod,
      Int.emod_eq_of_lt (by omega) (by omega)]
    omega

theorem ports_nodup : (ports start stop initialPort 0 (stop - start + 1).toNat).Nodup := by
  refine List.Nodup.map_on (fun i low j high same => ?_) List.nodup_range'
  rw [List.mem_range'_1] at low high
  rw [Int.tmod_eq_emod_of_nonneg (by omega), Int.tmod_eq_emod_of_nonneg (by omega)] at same
  have congruent : (i : Int) % (stop - start + 1) = j % (stop - start + 1) :=
    Int.emod_add_cancel_left.mp (Int.add_left_cancel same)
  rw [Int.emod_eq_of_lt (by omega) (by omega), Int.emod_eq_of_lt (by omega) (by omega)] at congruent
  omega

theorem head?_ports (last : initialPort ≤ stop) :
    (ports start stop initialPort 0 (stop - start + 1).toNat).head? = some initialPort := by
  obtain ⟨span, same⟩ : ∃ span, (stop - start + 1).toNat = span + 1 := ⟨(stop - start).toNat, by omega⟩
  rw [same, ports, List.range'_succ, List.map_cons, List.head?_cons, Int.tmod_eq_of_lt (by omega) (by omega)]
  exact congrArg some (by omega)

end Range

/-! ## The first port -/

/-- The hash of a text, as 32 bits. -/
def hashed (text : List Char) : Nat := text.foldl (fun hash char => (hash * 31 + charCode char) % 2 ^ 32) 0

theorem hashed_lt (text : List Char) : hashed text < 2 ^ 32 := by
  induction text using List.reverseRecOn with
  | nil => decide
  | append_singleton text char _ =>
      rw [hashed, List.foldl_append]
      exact Nat.mod_lt _ (by decide)

theorem charCode_lt (char : Char) : charCode char < 2 ^ 16 := by
  have scalar : char.toNat < 0x110000 := by
    have valid := char.valid
    rw [UInt32.isValidChar, Nat.isValidChar] at valid
    exact valid.elim (fun low => by change char.toNat < _ at low; omega) fun high => high.2
  rw [charCode]
  split <;> omega

/-- What is reduced to 32 bits is small enough to be exact before. -/
theorem hashed_exact (text : List Char) (char : Char) : hashed text * 31 + charCode char < 2 ^ 53 := by
  have hash := hashed_lt text
  have code := charCode_lt char
  omega

theorem allocateInitialLocalPort_eq {start stop : Int}
    (range : manager.config.tunnel.localPortRange = (start, stop)) (workspaceID host : String) :
    manager.allocateInitialLocalPort workspaceID host =
      start + Int.tmod (hashed (s!"{workspaceID}:{host}").toList) (stop - start + 1) := by
  rw [allocateInitialLocalPort, range]
  rfl

theorem allocateInitialLocalPort_mem {start stop : Int}
    (range : manager.config.tunnel.localPortRange = (start, stop)) (nonempty : start ≤ stop)
    (workspaceID host : String) : start ≤ manager.allocateInitialLocalPort workspaceID host ∧
      manager.allocateInitialLocalPort workspaceID host ≤ stop := by
  have span : 0 < stop - start + 1 := by omega
  rw [manager.allocateInitialLocalPort_eq range, Int.tmod_eq_emod_of_nonneg (Int.natCast_nonneg _)]
  have low := Int.emod_nonneg (hashed (s!"{workspaceID}:{host}").toList) (Int.ne_of_gt span)
  have high := Int.emod_lt_of_pos (hashed (s!"{workspaceID}:{host}").toList) span
  omega

/-! ## The search -/

/-- Every port of the range at most once, in the order of the search: the first one that comes
    up is returned, and only a range without one makes the search throw. -/
structure Exhausts (start stop initialPort : Int) (trials : List (Int × Option Nat))
    (result : Except String (Int × Option Nat)) : Prop where
  inside : ∀ trial ∈ trials, start ≤ trial.1 ∧ trial.1 ≤ stop
  distinct : (trials.map Prod.fst).Nodup
  first : (trials.map Prod.fst).head? = some initialPort
  returned : ∀ localPort tunnelPID, result = .ok (localPort, tunnelPID) ↔
    ∃ failed, trials = failed ++ [(localPort, tunnelPID)] ∧ tunnelPID ≠ none ∧
      ∀ trial ∈ failed, trial.2 = none
  thrown : (∃ message, result = .error message) ↔
    trials.length = (stop - start + 1).toNat ∧ ∀ trial ∈ trials, trial.2 = none

theorem settled_eq_ok {start stop localPort : Int} {result : Option (Int × Nat)} {tunnelPID : Option Nat} :
    settled start stop result = .ok (localPort, tunnelPID) ↔
      ∃ pid, result = some (localPort, pid) ∧ tunnelPID = some pid := by
  cases result with
  | none => simp [settled]
  | some found =>
      obtain ⟨port, pid⟩ := found
      simp only [settled, Except.ok.injEq, Prod.mk.injEq, Option.some.injEq]
      constructor
      · rintro ⟨rfl, rfl⟩
        exact ⟨pid, ⟨rfl, rfl⟩, rfl⟩
      · rintro ⟨_, ⟨rfl, rfl⟩, rfl⟩
        exact ⟨rfl, rfl⟩

theorem settled_eq_error {start stop : Int} {result : Option (Int × Nat)} :
    (∃ message, settled start stop result = .error message) ↔ result = none := by
  cases result with
  | none => exact iff_of_true ⟨_, rfl⟩ rfl
  | some found =>
      refine iff_of_false (fun thrown => ?_) (Option.some_ne_none found)
      obtain ⟨_, impossible⟩ := thrown
      cases impossible

section Conclusive

variable {start stop initialPort : Int} {trials : List (Int × Option Nat)} {result : Option (Int × Nat)}
  (conclusive : Program.Conclusive (ports start stop initialPort 0 (stop - start + 1).toNat) trials result)

include conclusive

theorem missed_iff_all_failed :
    result = none ↔ trials.length = (stop - start + 1).toNat ∧ ∀ trial ∈ trials, trial.2 = none := by
  have all : (ports start stop initialPort 0 (stop - start + 1).toNat).length = (stop - start + 1).toNat := by
    rw [ports, List.length_map, List.length_range']
  rw [conclusive.missed]
  constructor
  · rintro rfl
    refine ⟨by rw [List.length_map, all], fun trial member => ?_⟩
    obtain ⟨port, -, rfl⟩ := List.mem_map.mp member
    rfl
  · rintro ⟨length, none⟩
    have tried : trials.map Prod.fst = _ :=
      conclusive.inOrder.eq_of_length (by rw [List.length_map, length, all])
    rw [← tried, List.map_map]
    refine (List.map_id trials).symm.trans (List.map_congr_left fun trial member => ?_)
    exact Prod.ext rfl (none trial member)

theorem trials_ne_nil (nonempty : start ≤ stop) : trials ≠ [] := by
  rintro rfl
  cases result with
  | none =>
      have length := ((missed_iff_all_failed conclusive).mp rfl).1
      rw [List.length_nil] at length
      omega
  | some found =>
      obtain ⟨failed, split, -⟩ := (conclusive.found found.1 found.2).mp rfl
      exact List.append_ne_nil_of_right_ne_nil failed (List.cons_ne_nil _ _) split.symm

theorem exhausts_of_conclusive (nonempty : start ≤ stop) (low : start ≤ initialPort)
    (high : initialPort ≤ stop) :
    Exhausts start stop initialPort trials (settled start stop result) where
  inside trial member :=
    (mem_ports_iff nonempty low trial.1).mp (conclusive.inOrder.subset (List.mem_map_of_mem member))
  distinct := conclusive.inOrder.sublist.nodup (ports_nodup nonempty low)
  first := by
    obtain ⟨rest, order⟩ := conclusive.inOrder
    rw [← head?_ports nonempty low high, ← order, List.head?_append_of_ne_nil]
    exact mt List.map_eq_nil_iff.mp (trials_ne_nil conclusive nonempty)
  returned localPort tunnelPID := by
    rw [settled_eq_ok]
    constructor
    · rintro ⟨pid, found, rfl⟩
      obtain ⟨failed, split, none⟩ := (conclusive.found localPort pid).mp found
      exact ⟨failed, split, Option.some_ne_none pid, none⟩
    · rintro ⟨failed, split, up, none⟩
      obtain ⟨pid, rfl⟩ := Option.ne_none_iff_exists'.mp up
      exact ⟨pid, (conclusive.found localPort pid).mpr ⟨failed, split, none⟩, rfl⟩
  thrown := settled_eq_error.trans (missed_iff_all_failed conclusive)

end Conclusive

variable {σ World : Type} (exec : World → (o : RemoteOp) → σ → RemoteRes o × σ)

/-- Nothing but `ssh` processes that nobody can connect to. -/
def unreachable : (o : RemoteOp) → RemoteRes o
  | .now => 1
  | .tick | .sleep _ => ()
  | .rounds _ => 2
  | .randomToken => "secret"
  | .file _ | .ssh _ _ => .ok ""
  | .exists _ => false
  | .scp _ | .kill _ => .ok ()
  | .spawn _ => some 4711
  | .fetch _ => .error "ECONNREFUSED"

def threePorts : SSHManager :=
  ⟨⟨"~/.opencode-remote", "/opt/stub", ⟨(4000, 4002), 15000, 5000⟩, defaultDefaults, .empty⟩,
    some "/home/me", "/tmp", 7⟩

end SSHManager

end OpencodeRemote.Plugin
