import Mathlib.Data.List.Count
import OpencodeRemote.Data.OrderedMap

/-! # Drawing on vouchers

A stock of vouchers under keys. A query is granted if some voucher covers it; which one is
left open, and a single-use voucher is gone afterwards. The result says for which stocks the
answers to all sequences of queries are fixed although the choices are not.
-/

namespace OpencodeRemote.Data

namespace Vouchers

variable {κ ν Q : Type} [DecidableEq κ]

/-- How the answer to one query can come about. -/
inductive Draw (covers : ν → Q → Bool) (single : ν → Bool) (m : OrderedMap κ ν) (q : Q) :
    Bool → OrderedMap κ ν → Prop where
  | granted {k : κ} {v : ν} (stored : m.get k = some v) (covered : covers v q = true) :
      Draw covers single m q true (if single v then m.erase k else m)
  | refused (uncovered : ∀ k v, m.get k = some v → covers v q = false) : Draw covers single m q false m

inductive Draws (covers : ν → Q → Bool) (single : ν → Bool) :
    OrderedMap κ ν → List Q → List Bool → Prop where
  | nil {m : OrderedMap κ ν} : Draws covers single m [] []
  | cons {m m' : OrderedMap κ ν} {q : Q} {qs : List Q} {b : Bool} {bs : List Bool}
      (first : Draw covers single m q b m') (rest : Draws covers single m' qs bs) :
      Draws covers single m (q :: qs) (b :: bs)

variable (covers : ν → Q → Bool) (single : ν → Bool)

/-- Every sequence of queries has one sequence of answers. -/
def Settled (m : OrderedMap κ ν) : Prop :=
  ∀ qs bs bs', Draws covers single m qs bs → Draws covers single m qs bs' → bs = bs'

/-- A voucher that is not used up covers the query. -/
def Lasting (m : OrderedMap κ ν) (q : Q) : Prop :=
  ∃ k v, m.get k = some v ∧ single v = false ∧ covers v q = true

/-- Where a single-use voucher and another one cover a query in common, whatever the first
    covers is covered by the other one as well, or by a lasting voucher. -/
def Interchangeable (m : OrderedMap κ ν) : Prop :=
  ∀ k v k' v', m.get k = some v → m.get k' = some v' → k ≠ k' → single v = true →
    ∀ q, covers v q = true → covers v' q = true → ∀ q', covers v q' = true →
      covers v' q' = true ∨ Lasting covers single m q'

/-- How many single-use vouchers cover the query. -/
def stock (m : OrderedMap κ ν) (q : Q) : Nat :=
  m.entries.countP fun entry => single entry.2 && covers entry.2 q

variable {covers single}

private theorem filter_key {k : κ} {v : ν} {entries : List (κ × ν)}
    (nodup : (entries.map Prod.fst).Nodup) (member : (k, v) ∈ entries) :
    entries.filter (fun entry => entry.1 = k) = [(k, v)] := by
  induction entries with
  | nil => cases member
  | cons entry rest ih =>
      obtain ⟨absent, tail⟩ := List.nodup_cons.mp nodup
      cases List.mem_cons.mp member with
      | inl same =>
          subst same
          have none : rest.filter (fun entry => entry.1 = k) = [] := by
            apply List.filter_eq_nil_iff.mpr
            intro entry inRest
            have other : entry.1 ≠ k := fun same => absent (List.mem_map.mpr ⟨entry, inRest, same⟩)
            simpa using other
          simp [none]
      | inr later =>
          have other : entry.1 ≠ k := by
            rintro rfl
            exact absent (List.mem_map.mpr ⟨_, later, rfl⟩)
          simpa [other] using ih tail later

variable (covers single) in
theorem stock_erase {m : OrderedMap κ ν} {k : κ} {v : ν} (stored : m.get k = some v) (q : Q) :
    stock covers single m q =
      stock covers single (m.erase k) q + if single v && covers v q then 1 else 0 := by
  have own := filter_key m.keysNodup (OrderedMap.mem_entries.mpr stored)
  rw [stock, List.countP_eq_countP_filter_add m.entries _ fun entry => decide (entry.1 ≠ k)]
  simp only [ne_eq, decide_not, Bool.not_not, own, List.countP_singleton]
  simp [stock, OrderedMap.erase]

theorem stock_pos {m : OrderedMap κ ν} {q : Q} :
    0 < stock covers single m q ↔ ∃ k v, m.get k = some v ∧ single v = true ∧ covers v q = true := by
  simp only [stock, List.countP_pos_iff, Prod.exists, Bool.and_eq_true, OrderedMap.mem_entries]

/-- `m` is what is left of `full`: only single-use vouchers are gone. -/
structure Remainder (single : ν → Bool) (full m : OrderedMap κ ν) : Prop where
  sub : ∀ k v, m.get k = some v → full.get k = some v
  lasting : ∀ k v, full.get k = some v → single v = false → m.get k = some v

theorem Remainder.refl (m : OrderedMap κ ν) : Remainder single m m :=
  ⟨fun _ _ stored => stored, fun _ _ stored _ => stored⟩

theorem Remainder.draw {full m m' : OrderedMap κ ν} (remains : Remainder single full m) {q : Q} {b : Bool}
    (draw : Draw covers single m q b m') : Remainder single full m' := by
  cases draw with
  | refused uncovered => exact remains
  | @granted k v stored covered =>
      by_cases used : single v = true
      · rw [if_pos used]
        constructor
        · intro k' v' left
          rw [OrderedMap.get_erase] at left
          split at left
          · cases left
          · exact remains.sub k' v' left
        · intro k' v' inFull lasts
          have other : k' ≠ k := by
            rintro rfl
            cases (remains.sub k' v stored).symm.trans inFull
            rw [used] at lasts
            cases lasts
          rw [OrderedMap.get_erase_ne _ other]
          exact remains.lasting k' v' inFull lasts
      · rw [if_neg used]
        exact remains

/-- A query is granted if a lasting voucher covers it or a single-use one is left for it. -/
theorem granted_iff {full m m' : OrderedMap κ ν} (remains : Remainder single full m) {q : Q} {b : Bool}
    (draw : Draw covers single m q b m') :
    b = true ↔ Lasting covers single full q ∨ 0 < stock covers single m q := by
  rw [stock_pos]
  cases draw with
  | @granted k v stored covered =>
      refine iff_of_true rfl ?_
      cases used : single v with
      | true => exact .inr ⟨k, v, stored, used, covered⟩
      | false => exact .inl ⟨k, v, remains.sub k v stored, used, covered⟩
  | refused uncovered =>
      refine iff_of_false Bool.false_ne_true ?_
      rintro (⟨k, v, stored, lasts, covered⟩ | ⟨k, v, stored, -, covered⟩)
      · rw [uncovered k v (remains.lasting k v stored lasts)] at covered
        cases covered
      · rw [uncovered k v stored] at covered
        cases covered

/-- Two remainders of one stock that answer alike from now on. -/
structure Alike (covers : ν → Q → Bool) (single : ν → Bool) (full m m' : OrderedMap κ ν) : Prop where
  left : Remainder single full m
  right : Remainder single full m'
  level : ∀ q, ¬Lasting covers single full q → stock covers single m q = stock covers single m' q

/-- What a draw takes from the stock for another query without a lasting voucher. -/
theorem stock_draw {full m m' : OrderedMap κ ν} (remains : Remainder single full m) {q : Q}
    (draw : Draw covers single m q true m') :
    ∃ k v, full.get k = some v ∧ covers v q = true ∧ ∀ q', ¬Lasting covers single full q' →
      stock covers single m q' = stock covers single m' q' + if covers v q' then 1 else 0 := by
  cases draw with
  | @granted k v stored covered =>
      refine ⟨k, v, remains.sub k v stored, covered, fun q' short => ?_⟩
      cases used : single v with
      | true =>
          have taken := stock_erase covers single stored q'
          simpa [used] using taken
      | false =>
          have uncovered : covers v q' = false := by
            by_contra covered'
            exact short ⟨k, v, remains.sub k v stored, used, by simpa using covered'⟩
          simp [uncovered]

/-- Two draws for one query keep two like remainders alike. -/
theorem Alike.draw {full m₁ m₂ m₁' m₂' : OrderedMap κ ν}
    (free : Interchangeable covers single full) (alike : Alike covers single full m₁ m₂) {q : Q} {b : Bool}
    (draw₁ : Draw covers single m₁ q b m₁') (draw₂ : Draw covers single m₂ q b m₂') :
    Alike covers single full m₁' m₂' := by
  refine ⟨alike.left.draw draw₁, alike.right.draw draw₂, fun q' short => ?_⟩
  have before := alike.level q' short
  cases b with
  | false =>
      cases draw₁ with
      | refused _ => cases draw₂ with
        | refused _ => exact before
  | true =>
      obtain ⟨k₁, v₁, inFull₁, covered₁, taken₁⟩ := stock_draw alike.left draw₁
      obtain ⟨k₂, v₂, inFull₂, covered₂, taken₂⟩ := stock_draw alike.right draw₂
      rw [taken₁ q' short, taken₂ q' short] at before
      have same : covers v₁ q' = covers v₂ q' := by
        by_cases key : k₁ = k₂
        · subst key
          cases inFull₁.symm.trans inFull₂
          rfl
        · -- whatever covers `q'` is good for one use, so one covers it if the other does
          have swap : ∀ {k v k' v'}, full.get k = some v → full.get k' = some v' → k ≠ k' →
              covers v q = true → covers v' q = true → covers v q' = true → covers v' q' = true := by
            intro k v k' v' stored stored' different covered covered' also
            have used : single v = true := by
              by_contra lasts
              exact short ⟨k, v, stored, by simpa using lasts, also⟩
            exact (free k v k' v' stored stored' different used q covered covered' q' also).resolve_right short
          cases first : covers v₁ q' with
          | true => exact (swap inFull₁ inFull₂ key covered₁ covered₂ first).symm
          | false =>
              cases second : covers v₂ q' with
              | false => rfl
              | true =>
                  have also := swap inFull₂ inFull₁ (Ne.symm key) covered₂ covered₁ second
                  rw [first] at also
                  cases also
      rw [same] at before
      omega

theorem settled_of_interchangeable {m : OrderedMap κ ν} (free : Interchangeable covers single m) :
    Settled covers single m := by
  have settled : ∀ qs m₁ m₂ bs bs', Alike covers single m m₁ m₂ → Draws covers single m₁ qs bs →
      Draws covers single m₂ qs bs' → bs = bs' := by
    intro qs
    induction qs with
    | nil =>
        rintro m₁ m₂ bs bs' - ⟨⟩ ⟨⟩
        rfl
    | cons q qs ih =>
        intro m₁ m₂ bs bs' alike draws₁ draws₂
        cases draws₁ with
        | @cons _ _ _ _ b₁ _ first₁ rest₁ => cases draws₂ with
          | @cons _ _ _ _ b₂ _ first₂ rest₂ =>
              have answer : b₁ = b₂ := by
                rw [Bool.eq_iff_iff, granted_iff alike.left first₁, granted_iff alike.right first₂]
                by_cases lasting : Lasting covers single m q
                · simp [lasting]
                · rw [alike.level q lasting]
              subst answer
              rw [ih _ _ _ _ (alike.draw free first₁ first₂) rest₁ rest₂]
  exact fun qs bs bs' => settled qs m m bs bs' ⟨.refl m, .refl m, fun _ _ => rfl⟩

/-- A query without a lasting voucher is granted as often as there are vouchers for it. -/
theorem draws_replicate {full : OrderedMap κ ν} {q : Q} (short : ¬Lasting covers single full q) (n : Nat)
    {m : OrderedMap κ ν} (remains : Remainder single full m) :
    Draws covers single m (List.replicate n q)
      ((List.range n).map fun i => decide (i < stock covers single m q)) := by
  induction n generalizing m with
  | zero => exact .nil
  | succ n ih =>
      rw [List.replicate_succ, List.range_succ_eq_map, List.map_cons, List.map_map]
      by_cases left : 0 < stock covers single m q
      · obtain ⟨k, v, stored, used, covered⟩ := stock_pos.mp left
        have first : Draw covers single m q true (if single v then m.erase k else m) :=
          .granted stored covered
        have taken := stock_erase covers single stored q
        simp only [used, covered, Bool.and_self, if_true] at taken first
        have rest := ih (remains.draw first)
        simp only [left, decide_true]
        have shifted : ((fun i => decide (i < stock covers single m q)) ∘ Nat.succ) =
            fun i => decide (i < stock covers single (m.erase k) q) := by
          funext i
          simp only [Function.comp_apply, decide_eq_decide]
          omega
        rw [shifted]
        exact .cons first rest
      · have none : stock covers single m q = 0 := by omega
        have uncovered : ∀ k v, m.get k = some v → covers v q = false := by
          intro k v stored
          by_contra covered
          have covered : covers v q = true := by simpa using covered
          cases used : single v with
          | true => exact left (stock_pos.mpr ⟨k, v, stored, used, covered⟩)
          | false => exact short ⟨k, v, remains.sub k v stored, used, covered⟩
        have rest := ih remains
        simp only [none, Nat.not_lt_zero, decide_false] at rest ⊢
        exact .cons (.refused uncovered) rest

/-- Two vouchers that cover one query but not the same queries can be told apart: draw on
    the one or the other, then ask for what the first covers until nothing is left. -/
theorem interchangeable_of_settled {m : OrderedMap κ ν} (settled : Settled covers single m) :
    Interchangeable covers single m := by
  intro k v k' v' stored stored' different used q covered covered' q' also
  by_contra apart
  obtain ⟨uncovered, short⟩ := not_or.mp apart
  have uncovered : covers v' q' = false := by simpa using uncovered
  have first : Draw covers single m q true (if single v then m.erase k else m) := .granted stored covered
  have second : Draw covers single m q true (if single v' then m.erase k' else m) :=
    .granted stored' covered'
  have taken := stock_erase covers single stored q'
  have kept : stock covers single (if single v' then m.erase k' else m) q' = stock covers single m q' := by
    have taken' := stock_erase covers single stored' q'
    cases single v' with
    | true => simpa [uncovered] using taken'.symm
    | false => rfl
  simp only [used, also, Bool.and_self, if_true] at taken first
  have answers := settled _ _ _
    (.cons first (draws_replicate short (stock covers single m q') ((Remainder.refl m).draw first)))
    (.cons second (draws_replicate short (stock covers single m q') ((Remainder.refl m).draw second)))
  -- the last of the answers differs
  have last := congrArg (fun bs => bs[stock covers single m q']?) answers
  rw [kept] at last
  simp only [taken, List.getElem?_cons_succ, List.getElem?_map, List.getElem?_range, Nat.lt_succ_self,
    Option.map_some, Nat.lt_irrefl, decide_false, decide_true, Option.some.injEq,
    Bool.false_eq_true] at last

/-- The answers are settled exactly for stocks of interchangeable vouchers. -/
theorem settled_iff_interchangeable {m : OrderedMap κ ν} :
    Settled covers single m ↔ Interchangeable covers single m :=
  ⟨interchangeable_of_settled, settled_of_interchangeable⟩

end Vouchers

end OpencodeRemote.Data
