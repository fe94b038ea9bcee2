import OpencodeRemote.Link.Wire
import OpencodeRemote.Service.Mux

/-! # The mux of the link

On the link the stub's answer is all that counts, and its mux is a case distinction over the
paths. It answers as the registrations of `main` do, except that it has no event stream.
-/

namespace OpencodeRemote.Link

open Concurrency Data
open Stub (GoString lit)
open Service (Incoming Require Bearer ServeMux unauthorized)

/-- A registered pattern matches, so that the request is not answered by the mux itself. -/
def Routed (r : Stub.Request) : Prop :=
  Stub.cleanPath r.path = r.path ∧
    (r.path ∈ routes ∨ ∃ subtree ∈ subtrees, Stub.Strings.hasPrefix r.path subtree)

instance (r : Stub.Request) : Decidable (Routed r) := inferInstanceAs (Decidable (_ ∧ _))

theorem serve_of_not_routed {r : Stub.Request} (unknown : ¬Routed r) (startedAt : Int) :
    ∃ response : Stub.Response, Stub.serve startedAt r = .pure response := by
  by_cases clean : Stub.cleanPath r.path = r.path
  · have none : r.path ∉ routes ∧ ∀ subtree ∈ subtrees, ¬Stub.Strings.hasPrefix r.path subtree := by
      simpa [Routed, clean] using unknown
    simp only [routes, subtrees, List.map_cons, List.map_nil, List.mem_cons, List.not_mem_nil, not_or,
      forall_eq_or_imp] at none
    exact ⟨_, by simp [Stub.serve, clean, none]; rfl⟩
  · exact ⟨_, by simp [Stub.serve, clean]; rfl⟩

theorem mux_of_routed {r : Stub.Request} (routed : Routed r) (token authorization : GoString) (startedAt : Int) :
    mux token startedAt authorization r = Require (fun message => .pure (unauthorized message)) token authorization
      (Stub.serve startedAt r) := if_pos routed

theorem mux_of_not_routed {r : Stub.Request} (unknown : ¬Routed r) (token authorization : GoString)
    (startedAt : Int) : mux token startedAt authorization r = Stub.serve startedAt r := if_neg unknown

/-- Without the token no operation is performed. -/
theorem mux_of_not_bearer {token authorization : GoString} (other : ¬Bearer token authorization) (startedAt : Int)
    (r : Stub.Request) : ∃ response : Stub.Response, mux token startedAt authorization r = .pure response := by
  by_cases routed : Routed r
  · obtain ⟨message, refused⟩ := Service.require_of_not_bearer
      (fun message => (.pure (unauthorized message) : Stub.Handler Stub.Response)) other
    exact ⟨_, (mux_of_routed routed token authorization startedAt).trans (refused _)⟩
  · obtain ⟨response, served⟩ := serve_of_not_routed routed startedAt
    exact ⟨response, (mux_of_not_routed routed token authorization startedAt).trans served⟩

/-! ## The registrations of main -/

theorem routed_iff_matching (startedAt : Int) {r : Stub.Request} (clean : Stub.cleanPath r.path = r.path) :
    ((Service.handlers startedAt).matching r.path).isSome = true ↔ Routed r := by
  have patterns : (Service.handlers startedAt).map Prod.fst = (Service.handlers 0).map Prod.fst := rfl
  have whole : ∀ pattern ∈ (Service.handlers 0).map Prod.fst,
      pattern ∈ routes ∨ pattern ∈ subtrees := by decide +kernel
  have all : ∀ pattern ∈ routes ++ subtrees, pattern ∈ (Service.handlers 0).map Prod.fst := by decide +kernel
  have slashed : ∀ pattern ∈ routes, pattern.getLast? ≠ some Stub.slash := by decide +kernel
  have under : ∀ subtree ∈ subtrees, subtree.getLast? = some Stub.slash := by decide +kernel
  rw [ServeMux.isSome_matching, patterns]
  constructor
  · rintro (own | ⟨pattern, member, last, inside⟩)
    · refine ⟨clean, (whole _ own).imp_right fun member => ⟨_, member, ?_⟩⟩
      exact List.isPrefixOf_iff_prefix.mpr (List.prefix_refl _)
    · refine ⟨clean, .inr ⟨pattern, (whole pattern member).resolve_left fun route => ?_, inside⟩⟩
      exact slashed pattern route last
  · rintro ⟨-, route | ⟨subtree, member, inside⟩⟩
    · exact .inl (all _ (List.mem_append_left _ route))
    · exact .inr ⟨subtree, all _ (List.mem_append_right _ member), under subtree member, inside⟩

theorem isHandler_iff_routed (startedAt : Int) {r : Stub.Request}
    (taken : r.method ≠ ServeMux.methodConnect ∨ Stub.cleanPath r.path = r.path) :
    ((Service.handlers startedAt).handler r).isHandler = true ↔ Routed r := by
  rw [ServeMux.handler, Service.shouldRedirect_handlers, if_neg Bool.false_ne_true]
  by_cases clean : Stub.cleanPath r.path = r.path
  · rw [clean, ite_self, if_neg (not_not.mpr rfl), ← routed_iff_matching startedAt clean]
    cases (Service.handlers startedAt).matching r.path <;> rfl
  · rw [if_neg (taken.resolve_right clean), if_pos clean]
    exact iff_of_false Bool.false_ne_true fun routed => clean routed.1

/-- Off the event stream a request gets what the link's mux gives, each operation performed on
    the store and each announcement published. -/
theorem serve_eq_mux (token : GoString) (startedAt : Int) {r : Incoming}
    (taken : r.method ≠ ServeMux.methodConnect ∨ Stub.cleanPath r.path = r.path)
    (other : r.path ≠ lit "/global/event") :
    Service.serve token startedAt r = Service.lift (mux token startedAt r.authorization r.toRequest) := by
  have handled := Service.reply_handlers startedAt taken other
  have known := isHandler_iff_routed startedAt taken
  rw [Service.serve_eq]
  cases found : (Service.handlers startedAt).handler r.toRequest with
  | handler h =>
      rw [found] at handled known
      rw [mux_of_routed (known.mp rfl), Service.map_require Service.lift, ← handled]
      rfl
  | redirect path =>
      rw [found] at handled known
      rw [mux_of_not_routed fun routed => Bool.false_ne_true (known.mpr routed), ← handled]
      rfl
  | notFound =>
      rw [found] at handled known
      rw [mux_of_not_routed fun routed => Bool.false_ne_true (known.mpr routed), ← handled]
      rfl

end OpencodeRemote.Link
