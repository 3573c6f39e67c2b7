import Amf.Proofs.Procedures
import Amf.Proofs.Provisioned
import Amf.Proofs.Register

/-!
# Committed policies

A notification works on copies of the policies, one for each UE that it names, made when the UE is
first named and found again among the copies of other UEs. What it commits depends on neither: the
policy of a UE comes to its own changes, in the order of the document, from the policy that it has
(`notify_committed`), and if any change of any UE does not apply, nothing happens at all.

| | of one UE | of a notification |
| --- | --- | --- |
| its changes | `changesFor` | items, each for an `addressee?` |
| what they come to | `applyAll` | `working?`, `commit` |
| they can be applied | `AllApply` | `Applies` |
-/

namespace Amf

open Procedure

/-- The UE with the restrictions and the bit rate of a policy. -/
def Ue.adopt (x : Ue) (p : Subscription.Policy) : Ue :=
  { x with restrictions := p.restrictions, ambr := p.ambr }

namespace Subscription

variable {c : Context} {w w' : Working} {u v : Nat} {p q : Policy}

/-- What is done step by step succeeds if every step does. -/
theorem bind_eq_ok_iff {ε α β : Type} {x : Except ε α} {f : α → Except ε β} {b : β} :
    x >>= f = .ok b ↔ ∃ a, x = .ok a ∧ f a = .ok b := by
  cases x <;> simp [bind, Except.bind]

/-! ## The changes of one UE -/

/-- The policy after changes, each applied to what those before it have left. -/
def applyAll (changes : List Document.ChangeItem) (p : Policy) : Policy :=
  changes.foldl (fun p change => ((apply change).exec p).2) p

/-- Every change can be applied where it stands. -/
def AllApply (changes : List Document.ChangeItem) (p : Policy) : Prop :=
  ∀ before change after, changes = before ++ change :: after →
    ((apply change).exec (applyAll before p)).1 = .ok ()

section
variable {change : Document.ChangeItem} {changes first rest : List Document.ChangeItem}

theorem allApply_nil : AllApply [] p := fun before _ _ is => by simp at is

theorem allApply_cons : AllApply (change :: changes) p ↔
    ((apply change).exec p).1 = .ok () ∧ AllApply changes ((apply change).exec p).2 := by
  constructor
  · intro all
    refine ⟨all [] change changes rfl, fun before next after is => ?_⟩
    exact all (change :: before) next after (congrArg (change :: ·) is)
  · rintro ⟨applies, all⟩ (_ | ⟨_, before⟩) next after is
    · obtain ⟨rfl, -⟩ := List.cons.inj is
      exact applies
    · obtain ⟨rfl, same⟩ := List.cons.inj is
      exact all before next after same

/-- **Changes that are applied one by one come to their fold**, exactly if each can be applied. -/
theorem applyAll?_eq_ok_iff :
    applyAll? changes p = .ok q ↔ AllApply changes p ∧ q = applyAll changes p := by
  induction changes generalizing p with
  | nil =>
    constructor
    · rintro ⟨⟩
      exact ⟨allApply_nil, rfl⟩
    · rintro ⟨-, rfl⟩
      rfl
  | cons change changes ih =>
    rw [allApply_cons, and_assoc]
    unfold applyAll? at ih ⊢
    rw [List.foldlM_cons]
    unfold applyAll
    rw [List.foldl_cons]
    generalize (apply change).exec p = outcome
    obtain ⟨_ | _, p'⟩ := outcome
    · exact ⟨nofun, nofun⟩
    · exact ih.trans (and_iff_right rfl).symm

theorem allApply_append :
    AllApply (first ++ rest) p ↔ AllApply first p ∧ AllApply rest (applyAll first p) := by
  induction first generalizing p with
  | nil => exact (and_iff_right allApply_nil).symm
  | cons change first ih =>
    rw [List.cons_append, allApply_cons, allApply_cons, ih, and_assoc]
    rfl

end

/-! ## Items -/

/-- The UE that an item of a notification is for. -/
def addressee? (c : Context) (item : Document.NotifyItem) : Option Nat :=
  (resourceUe? c item.resourceId).toOption.map (·.2)

/-- The changes for a UE, in the order of the document. -/
def changesFor (c : Context) (u : Nat) (items : List Document.NotifyItem) :
    List Document.ChangeItem :=
  (items.filter fun item => addressee? c item = some u).flatMap (·.changes)

theorem changesFor_cons_self {item : Document.NotifyItem} {items : List Document.NotifyItem}
    (addressed : addressee? c item = some u) :
    changesFor c u (item :: items) = item.changes ++ changesFor c u items := by
  unfold changesFor
  rw [List.filter_cons_of_pos (by simpa using addressed), List.flatMap_cons]

theorem changesFor_cons_of_ne {item : Document.NotifyItem} {items : List Document.NotifyItem}
    (addressed : addressee? c item ≠ some u) :
    changesFor c u (item :: items) = changesFor c u items := by
  unfold changesFor
  rw [List.filter_cons_of_neg (by simpa using addressed)]

/-- The policy of a UE among the copies, or else the one that the context holds. -/
def policy? (c : Context) (w : Working) (u : Nat) : Option Policy :=
  valueOf u w <|> (c.ues.get? u).map policyOf

theorem valueOf_put : valueOf v (put u q w) = if v = u then some q else valueOf v w := by
  induction w with
  | nil => rfl
  | cons e w ih =>
    unfold put
    by_cases is : e.1 = u
    · by_cases same : v = u <;> simp [valueOf, is, same]
    · rw [if_neg is, valueOf, valueOf, ih]
      by_cases same : v = u
      · have other : v ≠ e.1 := fun h => is (h.symm.trans same)
        simp [same, same ▸ other]
      · simp [same]

theorem policy?_put : policy? c (put u q w) v = if v = u then some q else policy? c w v := by
  unfold policy?
  rw [valueOf_put]
  by_cases same : v = u <;> simp [same]

/-- A copy in the place of a policy is one more policy for no UE. -/
theorem exists_policy?_put (has : policy? c w v = some p) :
    (∃ r, policy? c (put v q w) u = some r) ↔ ∃ r, policy? c w u = some r := by
  rw [policy?_put]
  by_cases is : u = v
  · simp [is, has]
  · rw [if_neg is]

theorem current?_eq_ok_iff {supi : String} : current? c w supi u = .ok p ↔ policy? c w u = some p := by
  unfold current? policy?
  cases valueOf u w with
  | some q => simp
  | none => cases c.ues.get? u <;> simp

theorem addressee?_eq_some_iff {item : Document.NotifyItem} : addressee? c item = some u ↔
    ∃ supi, resourceUe? c item.resourceId = .ok (supi, u) := by
  unfold addressee?
  cases resourceUe? c item.resourceId <;> simp [Except.toOption, Prod.ext_iff]

/-- **An item changes the copy of its UE**, and no other. -/
theorem applyItem?_eq_ok_iff {item : Document.NotifyItem} : applyItem? c w item = .ok w' ↔
    ∃ u p q, addressee? c item = some u ∧ policy? c w u = some p ∧
      applyAll? item.changes p = .ok q ∧ w' = put u q w := by
  unfold applyItem?
  constructor
  · intro done
    obtain ⟨⟨supi, u⟩, names, done⟩ := bind_eq_ok_iff.1 done
    obtain ⟨p, has, done⟩ := bind_eq_ok_iff.1 done
    obtain ⟨q, applied, done⟩ := bind_eq_ok_iff.1 done
    cases done
    exact ⟨u, p, q, addressee?_eq_some_iff.2 ⟨supi, names⟩, current?_eq_ok_iff.1 has, applied, rfl⟩
  · rintro ⟨u, p, q, addressed, has, applied, rfl⟩
    obtain ⟨supi, names⟩ := addressee?_eq_some_iff.1 addressed
    refine bind_eq_ok_iff.2 ⟨(supi, u), names, ?_⟩
    refine bind_eq_ok_iff.2 ⟨p, current?_eq_ok_iff.2 has, ?_⟩
    exact bind_eq_ok_iff.2 ⟨q, applied, rfl⟩

/-- Every item is for a UE that has a policy, and the changes for every UE can be applied to its
policy. -/
def Fits (c : Context) (w : Working) (items : List Document.NotifyItem) : Prop :=
  (∀ item ∈ items, ∃ u p, addressee? c item = some u ∧ policy? c w u = some p) ∧
    ∀ u p, policy? c w u = some p → AllApply (changesFor c u items) p

section
variable {item : Document.NotifyItem} {items : List Document.NotifyItem}

/-- An item that fits leaves a policy that the items behind it have to fit. -/
theorem fits_cons (addressed : addressee? c item = some v) (has : policy? c w v = some p) :
    Fits c w (item :: items) ↔
      AllApply item.changes p ∧ Fits c (put v (applyAll item.changes p) w) items := by
  have others : (∀ i ∈ items, ∃ u r, addressee? c i = some u ∧ policy? c w u = some r) ↔
      ∀ i ∈ items, ∃ u r, addressee? c i = some u ∧
        policy? c (put v (applyAll item.changes p) w) u = some r := by
    simp only [exists_and_left, exists_policy?_put has]
  constructor
  · rintro ⟨named, apply⟩
    have own := apply v p has
    rw [changesFor_cons_self addressed, allApply_append] at own
    refine ⟨own.1, others.1 fun i mem => named i (List.mem_cons_of_mem _ mem), fun u r has' => ?_⟩
    rw [policy?_put] at has'
    split at has'
    · rename_i is
      cases has'
      exact is ▸ own.2
    · rename_i is
      have other := apply u r has'
      rwa [changesFor_cons_of_ne (by simpa [addressed] using Ne.symm is)] at other
  · rintro ⟨first, named, apply⟩
    refine ⟨List.forall_mem_cons.2 ⟨⟨v, p, addressed, has⟩, others.2 named⟩, fun u r has' => ?_⟩
    by_cases is : u = v
    · subst is
      cases has.symm.trans has'
      rw [changesFor_cons_self addressed, allApply_append]
      exact ⟨first, apply u _ (by rw [policy?_put, if_pos rfl])⟩
    · rw [changesFor_cons_of_ne (by simpa [addressed] using Ne.symm is)]
      exact apply u r (by rw [policy?_put, if_neg is, has'])

/-- **Copies that are made and found in any order can be changed** exactly if the changes for every
UE fit its policy. -/
theorem exists_of_foldlM_iff : (∃ w', items.foldlM (applyItem? c) w = .ok w') ↔ Fits c w items := by
  induction items generalizing w with
  | nil => exact iff_of_true ⟨w, rfl⟩ ⟨by simp, fun _ _ _ => allApply_nil⟩
  | cons item items ih =>
    rw [List.foldlM_cons]
    constructor
    · rintro ⟨w', applied⟩
      obtain ⟨w₁, first, applied⟩ := bind_eq_ok_iff.1 applied
      obtain ⟨v, p, q, addressed, has, changed, rfl⟩ := applyItem?_eq_ok_iff.1 first
      obtain ⟨all, rfl⟩ := applyAll?_eq_ok_iff.1 changed
      exact (fits_cons addressed has).2 ⟨all, ih.1 ⟨w', applied⟩⟩
    · intro fits
      obtain ⟨v, p, addressed, has⟩ := fits.1 item List.mem_cons_self
      obtain ⟨all, fits⟩ := (fits_cons addressed has).1 fits
      have first := applyItem?_eq_ok_iff.2
        ⟨v, p, _, addressed, has, applyAll?_eq_ok_iff.2 ⟨all, rfl⟩, rfl⟩
      obtain ⟨w', applied⟩ := ih.2 fits
      exact ⟨w', bind_eq_ok_iff.2 ⟨_, first, applied⟩⟩

/-- **The copy of each UE is what its own changes come to.** -/
theorem policy?_of_foldlM (applied : items.foldlM (applyItem? c) w = .ok w') (u : Nat) :
    policy? c w' u = (policy? c w u).map (applyAll (changesFor c u items)) := by
  induction items generalizing w with
  | nil =>
    cases applied
    cases policy? c w' u <;> rfl
  | cons item items ih =>
    rw [List.foldlM_cons] at applied
    obtain ⟨w₁, first, applied⟩ := bind_eq_ok_iff.1 applied
    obtain ⟨v, p, q, addressed, has, changed, rfl⟩ := applyItem?_eq_ok_iff.1 first
    rw [ih applied, policy?_put]
    by_cases is : u = v
    · subst is
      rw [if_pos rfl, has, changesFor_cons_self addressed]
      obtain ⟨-, rfl⟩ := applyAll?_eq_ok_iff.1 changed
      unfold applyAll
      rw [Option.map_some, Option.map_some, List.foldl_append]
    · rw [if_neg is, changesFor_cons_of_ne (by simpa [addressed] using Ne.symm is)]

end

/-! ## Commitment -/

/-- The policy without whether its bit rate was changed: what is kept of it. -/
def Policy.cached (p : Policy) : List RatType × Ambr := (p.restrictions, p.ambr)

/-- What is kept of the policy of a UE. -/
def cached (c : Context) (u : Nat) : Option (List RatType × Ambr) :=
  (c.ues.get? u).map fun x => (policyOf x).cached

/-- The UEs that have a copy. -/
def named (w : Working) : List Nat := w.map (·.1)

theorem named_put : named (put u p w) = if u ∈ named w then named w else named w ++ [u] := by
  induction w with
  | nil => rfl
  | cons e w ih =>
    unfold put
    by_cases is : e.1 = u
    · simp [named, is]
    · have ih : (put u p w).map (·.1) = _ := ih
      rw [if_neg is]
      unfold named at ih ⊢
      rw [List.map_cons, ih, List.map_cons]
      by_cases mem : u ∈ w.map (·.1)
      · rw [if_pos mem, if_pos (List.mem_cons_of_mem _ mem)]
      · rw [if_neg mem, if_neg (by simp [Ne.symm is] at mem ⊢; exact mem)]
        rfl

theorem nodup_put (distinct : (named w).Nodup) : (named (put u p w)).Nodup := by
  rw [named_put]
  split
  · exact distinct
  · rename_i new
    refine List.nodup_append.2 ⟨distinct, by simp, ?_⟩
    rintro a mem b is rfl
    rw [List.mem_singleton.1 is] at mem
    exact new mem

/-- No UE has two copies. -/
theorem nodup_of_foldlM {items : List Document.NotifyItem} (distinct : (named w).Nodup)
    (applied : items.foldlM (applyItem? c) w = .ok w') : (named w').Nodup := by
  induction items generalizing w with
  | nil =>
    cases applied
    exact distinct
  | cons item items ih =>
    rw [List.foldlM_cons] at applied
    obtain ⟨w₁, first, applied⟩ := bind_eq_ok_iff.1 applied
    obtain ⟨v, p, q, -, -, -, rfl⟩ := applyItem?_eq_ok_iff.1 first
    exact ih (nodup_put distinct) applied

theorem valueOf_of_not_mem (absent : u ∉ named w) : valueOf u w = none := by
  cases has : valueOf u w with
  | none => rfl
  | some p => exact absurd (List.mem_map_of_mem (mem_of_valueOf has)) absent

/-- **Each UE gets the policy of its copy, if it has one.** -/
theorem get?_commit (distinct : (named w).Nodup) : (commit c w).ues.get? u =
    (c.ues.get? u).map fun x => x.adopt ((valueOf u w).getD (policyOf x)) := by
  induction w generalizing c with
  | nil => exact Option.map_id'.symm
  | cons e w ih =>
    obtain ⟨absent, distinct⟩ := List.nodup_cons.1 distinct
    show (commit (c.modifyUe e.1 _) w).ues.get? u = _
    rw [ih distinct]
    show ((c.ues.modify e.1 _).get? u).map _ = _
    rw [Table.get?_modify, valueOf]
    by_cases is : u = e.1
    · subst is
      rw [if_pos rfl, if_pos rfl, valueOf_of_not_mem absent, Option.map_map]
      rfl
    · rw [if_neg is, if_neg is]

/-- The copy of a UE, and else the policy that it has, is what its own changes come to. -/
theorem getD_valueOf {x : Ue} {m : Document.Modification} (applied : working? c m = .ok w)
    (there : c.ues.get? u = some x) : (valueOf u w).getD (policyOf x) =
      applyAll (changesFor c u m.items) (policyOf x) := by
  have copy : (valueOf u w <|> some (policyOf x)) =
      some (applyAll (changesFor c u m.items) (policyOf x)) := by
    simpa [policy?, there, valueOf] using policy?_of_foldlM applied u
  cases own : valueOf u w <;> rw [own] at copy <;> exact Option.some.inj copy

end Subscription

/-- A second UE beside the one with a session, with a permanent identity alone. -/
def Context.twoUes : Context := (oneSession.addUe.elim oneSession (·.2)).setSupi 2 "imsi-2"

/-- The act is one that follows a commitment. -/
def Act.follows : Act → Bool
  | .tell .. | .ask _ | .deregister _ | .mark _ => true
  | _ => false

namespace Subscription

variable {c : Context} {w : Working} {u : Nat} {n n' : Node} {m m' : Document.Modification}

/-- What follows a commitment leaves policies alone. -/
theorem cached_of_chain (chain : Chain (·.follows) n n') :
    cached n'.context u = cached n.context u := by
  refine chain.keeps (P := fun m => cached m.context u = cached n.context u) ?_ rfl
  intro a m m' may step same
  refine Eq.trans ?_ same
  cases step with
  | tell | ask => rfl
  | deregister => exact Table.map_get?_modify fun _ => rfl
  | mark => exact Table.map_get?_modify fun _ => rfl
  | _ => cases may

theorem snd_notify (applied : working? n.context m = .ok w) :
    ((notify m).exec n).2 = ((followAll w).exec (n.change (commit · w))).2 := by
  unfold notify
  rw [exec_context_bind, applied]
  show (Procedure.exec (change _ >>= _) n).2 = _
  rw [exec_change_bind, exec_bind]
  generalize (followAll w).exec (n.change (commit · w)) = result
  obtain ⟨_ | outcomes, after⟩ := result
  · rfl
  · simp only
    split <;> rfl

/-- A notification whose changes cannot all be applied has no effect. -/
theorem exec_notify_of_error {why : ChangeError} (failed : working? n.context m = .error why) :
    (notify m).exec n = (.error (.change why), n) := by
  unfold notify
  rw [exec_context_bind, failed]
  rfl

/-- Every item of a notification is for a UE that is there, and every change for a UE can be applied
where it stands, after those for the UE that precede it. -/
def Applies (c : Context) (m : Document.Modification) : Prop :=
  (∀ item ∈ m.items, ∃ u x, addressee? c item = some u ∧ c.ues.get? u = some x) ∧
    ∀ u x, c.ues.get? u = some x → AllApply (changesFor c u m.items) (policyOf x)

theorem policy?_nil : policy? c [] u = (c.ues.get? u).map policyOf := rfl

theorem exists_working_iff : (∃ w, working? c m = .ok w) ↔ Applies c m := by
  refine exists_of_foldlM_iff.trans (and_congr ?_ (forall_congr' fun u => ?_))
  · refine forall₂_congr fun item _ => exists_congr fun u => ?_
    rw [policy?_nil]
    cases c.ues.get? u <;> simp
  · simp only [policy?_nil, Option.map_eq_some_iff, forall_exists_index, and_imp,
      forall_apply_eq_imp_iff₂]

/-- **A notification commits for each UE what its own changes come to.** -/
theorem cached_notify (applies : Applies n.context m) (u : Nat) :
    cached ((notify m).exec n).2.context u = (n.context.ues.get? u).map fun x =>
      (applyAll (changesFor n.context u m.items) (policyOf x)).cached := by
  obtain ⟨w, applied⟩ := exists_working_iff.2 applies
  have chain : Chain (·.follows) (n.change (commit · w)) ((followAll w).exec _).2 :=
    followAll_chain (fun _ _ => rfl) (fun _ => rfl) (fun _ => rfl) (fun _ => rfl) w _
  have distinct : (named w).Nodup := nodup_of_foldlM (w := []) List.nodup_nil applied
  rw [snd_notify applied, cached_of_chain chain]
  show ((commit n.context w).ues.get? u).map _ = _
  rw [get?_commit distinct, Option.map_map]
  refine Option.map_congr fun x there => ?_
  show Policy.cached ((valueOf u w).getD (policyOf x)) = _
  rw [getD_valueOf applied there]

/-- The items of a notification in another order, but in the same one for each UE. -/
def Reorders (c : Context) (m m' : Document.Modification) : Prop :=
  m'.items.Perm m.items ∧ ∀ u, m'.items.filter (fun item => addressee? c item = some u) =
    m.items.filter fun item => addressee? c item = some u

theorem Reorders.changesFor_eq (reorders : Reorders c m m') (u : Nat) :
    changesFor c u m'.items = changesFor c u m.items := by
  unfold changesFor
  rw [reorders.2 u]

theorem Reorders.applies_iff (reorders : Reorders c m m') : Applies c m' ↔ Applies c m := by
  unfold Applies
  simp only [reorders.changesFor_eq, reorders.1.mem_iff]

/-- **Committed subscriber data is the ordered fold of the changes.** If every item is for a UE that is
there, and every change for a UE can be applied where it stands, then after a notification, whatever
the transports refuse, the restrictions and the bit rate of each UE are what its own changes come to
in the order of the document, from those that it had; a UE that no item is for keeps its own. A
notification with the same items in another order, but in the same one for each UE, leads to the same
policies. And if any item or change fails, the notification fails with that and nothing has happened:
no policy is changed, no message leaves, no UE is marked. -/
theorem notify_committed (n : Node) (m : Document.Modification) :
    (Applies n.context m →
      (∀ u, cached ((notify m).exec n).2.context u = (n.context.ues.get? u).map fun x =>
        (applyAll (changesFor n.context u m.items) (policyOf x)).cached) ∧
      (∀ u, (∀ item ∈ m.items, addressee? n.context item ≠ some u) →
        cached ((notify m).exec n).2.context u = cached n.context u) ∧
      ∀ m', Reorders n.context m m' → Applies n.context m' ∧
        ∀ u, cached ((notify m').exec n).2.context u = cached ((notify m).exec n).2.context u) ∧
    (¬Applies n.context m → ∃ why, (notify m).exec n = (.error (.change why), n)) := by
  refine ⟨fun applies => ⟨cached_notify applies, fun u unnamed => ?_, fun m' reorders => ?_⟩,
    fun fails => ?_⟩
  · have none : changesFor n.context u m.items = [] := by
      unfold changesFor
      rw [List.filter_eq_nil_iff.2 (by simpa using unnamed)]
      rfl
    rw [cached_notify applies u, none]
    rfl
  · have applies' := reorders.applies_iff.2 applies
    refine ⟨applies', fun u => ?_⟩
    rw [cached_notify applies' u, cached_notify applies u, reorders.changesFor_eq]
  · cases outcome : working? n.context m with
    | ok w => exact absurd (exists_working_iff.1 ⟨w, outcome⟩) fails
    | error why => exact ⟨why, exec_notify_of_error outcome⟩

/-- A notification that restricts the access of one UE to two technologies, one after the other, and
that of another UE to one in between. -/
def interleaved : Document.Modification :=
  let change (path : String) (rat : String) : Document.ChangeItem :=
    { op := .add, path := some path, newValue := some (.str rat) }
  { items := [⟨"imsi-1/am-data", [change "/ratRestrictions/-" "NR"]⟩,
      ⟨"imsi-2/am-data", [change "/ratRestrictions/-" "WLAN"]⟩,
      ⟨"imsi-1/am-data", [change "/ratRestrictions/0" "EUTRA"]⟩] }

/-- The hypothesis is satisfiable: the changes of two UEs are interleaved, and those of the first are
taken in their order. -/
theorem notify_committed_interleaved :
    let n : Node := { context := .twoUes }
    Applies n.context interleaved ∧
    cached ((notify interleaved).exec n).2.context 1 = some ([.eutra, .nr], {}) ∧
    cached ((notify interleaved).exec n).2.context 2 = some ([.wlan], {}) := by
  intro n
  have applies : Applies n.context interleaved := exists_working_iff.1 ⟨_, rfl⟩
  obtain ⟨committed, -, -⟩ := (notify_committed n interleaved).1 applies
  exact ⟨applies, (committed 1).trans rfl, (committed 2).trans rfl⟩

end Subscription
end Amf
