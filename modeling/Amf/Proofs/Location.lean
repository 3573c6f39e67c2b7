import Amf.Proofs.Identities
import Amf.Proofs.Responses

/-!
# Locations of transfers

The location of a parked transfer is a path on this AMF that is made of the name of the UE, and a
request to it names the UE by the first word of that name. The name is the permanent identity, or a
word that stands for none, whichever identity the request for the transfer used. So the location
leads back to the UE exactly if the UE is found by that word and the path goes on as one of a transfer
(`Context.locates_iff`), and never for a UE that has no permanent identity.

| words of the path | of the location |
| --- | --- |
| first, second, third | the service, its version, the contexts of UEs |
| next | those of the name: one, unless the identity is empty or has a slash in it |
| next | the resource of transfers |
| last | those of the session's context, if there is one |
-/

namespace Amf

open Text

namespace Text

variable {sep : Char}

theorem pieces_append_sep (a b : List Char) :
    pieces sep (a ++ sep :: b) = pieces sep a ++ pieces sep b := by
  induction a with
  | nil => exact if_pos rfl
  | cons c cs ih =>
    simp only [List.cons_append, pieces, ih]
    split
    · rfl
    · cases hp : pieces sep cs with
      | nil => exact absurd hp (pieces_ne_nil sep cs)
      | cons p ps => rfl

/-- A text without separators is one piece. -/
theorem pieces_of_not_mem {cs : List Char} (free : sep ∉ cs) : pieces sep cs = [cs] := by
  induction cs with
  | nil => rfl
  | cons c cs ih =>
    rw [List.mem_cons, not_or] at free
    unfold pieces
    rw [if_neg (Ne.symm free.1), ih free.2]

/-- **The words of two texts with a slash between them are those of the one and those of the
other.** -/
theorem words_append_slash (a b : String) :
    words '/' (a ++ "/" ++ b) = words '/' a ++ words '/' b := by
  unfold words
  have toList : (a ++ "/" ++ b).toList = a.toList ++ '/' :: b.toList := by simp
  rw [toList, pieces_append_sep, List.filter_append, List.map_append]

theorem words_slash (s : String) : words '/' ("/" ++ s) = words '/' s :=
  words_append_slash "" s

theorem words_of_free {s : String} (filled : s ≠ "") (free : '/' ∉ s.toList) :
    words '/' s = [s] := by
  unfold words
  rw [pieces_of_not_mem free, List.filter_singleton]
  have filled : s.toList.isEmpty = false := by simpa using filled
  rw [filled]
  exact congrArg (List.cons · []) (String.ofList_toList)

/-- Segments, each with a slash before it. -/
def path : List String → String
  | [] => ""
  | s :: rest => "/" ++ s ++ path rest

theorem path_cons (s : String) (rest : List String) : path (s :: rest) = "/" ++ s ++ path rest := rfl

/-- **The words of a path are those of its segments.** -/
theorem words_path (segments : List String) : words '/' (path segments) =
    segments.flatMap (words '/') := by
  induction segments with
  | nil => rfl
  | cons s rest ih =>
    rw [path_cons, String.append_assoc, words_slash, List.flatMap_cons, ← ih]
    cases rest with
    | nil =>
      show words '/' (s ++ "") = words '/' s ++ []
      rw [String.append_empty, List.append_nil]
    | cons t rest =>
      rw [path_cons, String.append_assoc, words_slash, ← String.append_assoc, words_append_slash]

/-- Segments after a first text are a path after it. -/
theorem intercalate_cons (s : String) (rest : List String) :
    "/".intercalate (s :: rest) = s ++ path rest := by
  induction rest generalizing s with
  | nil => exact String.intercalate_singleton.trans (String.append_empty).symm
  | cons t rest ih =>
    rw [String.intercalate_cons_cons, ih, path_cons]
    simp only [String.append_assoc]

theorem path_append (a b : List String) : path (a ++ b) = path a ++ path b := by
  induction a with
  | nil => exact (String.empty_append).symm
  | cons s rest ih =>
    rw [List.cons_append, path_cons, path_cons, ih]
    simp only [String.append_assoc]

end Text

/-! ## Paths of transfers -/

namespace Api

/-- The segments of the path of a transfer to a UE. -/
def transferSegments (name : String) (smRef : Option String) : List String :=
  [communication, version, ueContexts, name, messages] ++ smRef.toList

/-- The location of a transfer is a path on this AMF. -/
theorem transferLocation_eq (own : Origin) (name : String) (smRef : Option String) :
    transferLocation own name smRef = own.baseUri ++ path (transferSegments name smRef) := by
  unfold transferLocation transferSegments
  rw [intercalate_cons, path_append, ← String.append_assoc]
  cases smRef with
  | none => exact String.append_empty.symm
  | some ref =>
    show _ ++ "/" ++ ref = _ ++ ("/" ++ ref ++ "")
    rw [String.append_empty, String.append_assoc]

/-- **What a request to the location of a transfer names**: the contexts of UEs, then what the words
of the name say, then transfers. -/
theorem ofPath_transferSegments (method name : String) (smRef : Option String) :
    Request.ofPath method (path (transferSegments name smRef)) =
      { method
        service := communication
        components := ueContexts ::
          (words '/' name ++ messages :: smRef.toList.flatMap (words '/')) } := by
  have fixed : words '/' communication = [communication] ∧ words '/' version = [version] ∧
      words '/' ueContexts = [ueContexts] ∧ words '/' messages = [messages] := by
    decide
  unfold Request.ofPath
  rw [words_path]
  unfold transferSegments
  simp [fixed]

end Api

/-! ## Names that lead back -/

namespace Context

variable {c c' : Context} {u : Nat} {x : Ue} {smRef : Option String}

/-- A location on this AMF leads to a UE: the path of a request to it names transfers to that UE. -/
def Leads (c : Context) (location : String) (u : Nat) : Prop :=
  ∃ path, location = c.origin.baseUri ++ path ∧ ∀ method,
    let r := Request.ofPath method path
    r.service = Api.communication ∧ r.component? 0 = some Api.ueContexts ∧
      (∃ id, r.component? 1 = some id ∧ c.findUe? id = some u) ∧ r.component? 2 = some Api.messages

/-- A UE is found by the first word of its name, and there is no second word that could be taken for
another resource. -/
def FoundByName (c : Context) (u : Nat) : Prop :=
  ∃ x word rest, c.ues.get? u = some x ∧ words '/' x.name = word :: rest ∧
    c.findUe? word = some u ∧ ∀ next, rest.head? = some next → next = Api.messages

theorem Indexed.of_same (same : SameRegister c c') (h : c.Indexed) : c'.Indexed :=
  h.of_renames (h.registered.of_same same) fun _ => .of_same same

/-- **Where a location leads.** The location of a transfer to a UE leads back to it exactly if the UE
is found by the first word of its name and the resource of transfers comes next. -/
theorem leads_iff (h : c.Indexed) (hx : c.ues.get? u = some x) :
    c.Leads (Api.transferLocation c.origin x.name smRef) u ↔ c.FoundByName u := by
  rw [Api.transferLocation_eq]
  constructor
  · rintro ⟨path, is, leads⟩
    obtain rfl := (String.append_right_inj _).1 is
    obtain ⟨-, -, ⟨id, names, found⟩, resource⟩ := leads "POST"
    rw [Api.ofPath_transferSegments] at names resource
    unfold Request.component? at names resource
    rw [List.getElem?_cons_succ] at names resource
    cases split : words '/' x.name with
    | nil =>
      -- The UE that is found by the name of the resource has it for a name of its own.
      rw [split] at names
      cases names
      obtain ⟨y, hy, named⟩ := h.named found
      rw [hx] at hy
      cases hy
      have supi : x.supi = some Api.messages := named
      unfold Ue.name at split
      rw [supi] at split
      cases split
    | cons word rest =>
      rw [split] at names resource
      cases names
      refine ⟨x, id, rest, hx, split, found, fun next is => ?_⟩
      cases rest with
      | nil => cases is
      | cons next rest =>
        cases is
        exact Option.some.inj resource
  · rintro ⟨y, word, rest, hy, split, found, follows⟩
    rw [hx] at hy
    cases hy
    refine ⟨_, rfl, fun method => ?_⟩
    rw [Api.ofPath_transferSegments, split]
    refine ⟨rfl, rfl, ⟨word, rfl, found⟩, ?_⟩
    cases rest with
    | nil => rfl
    | cons next rest => exact congrArg some (follows next rfl)

/-- A UE with a permanent identity that is one word is found by its name if it is found by the
identity. -/
theorem foundByName_of_supi {supi : String} (hx : c.ues.get? u = some x)
    (known : x.supi = some supi) (filled : supi ≠ "") (free : '/' ∉ supi.toList)
    (found : c.findUe? supi = some u) : c.FoundByName u := by
  refine ⟨x, supi, [], hx, ?_, found, nofun⟩
  unfold Ue.name
  rw [known, Option.getD_some, words_of_free filled free]

/-- **A UE without a permanent identity is never found by its name.** -/
theorem Indexed.not_foundByName (h : c.Indexed) (hx : c.ues.get? u = some x)
    (unknown : x.supi = none) : ¬c.FoundByName u := by
  rintro ⟨y, word, rest, hy, split, found, -⟩
  rw [hx] at hy
  cases hy
  unfold Ue.name at split
  rw [unknown] at split
  cases split
  obtain ⟨y, hy, named⟩ := h.named found
  rw [hx] at hy
  cases hy
  have supi : x.supi = some "Unknown" := named
  rw [unknown] at supi
  cases supi

end Context

/-- In a context that was set up every index is sound. -/
theorem Provisioned.indexed {config : Config} {c : Context} (h : Provisioned config c) :
    c.Indexed := by
  -- What is added one by one is added by operations.
  have operation : ∀ {c : Context} (o : Operation), c.Indexed →
      (o.apply { context := c }).context.Indexed := fun o h => o.indexed h
  induction h with
  | start => exact config.indexed_context
  | @addUe c c' u before added ih =>
    have applied : (Operation.addUe.apply { context := c }).context = c' := by
      show c.addUe.elim c (·.2) = c'
      rw [added]
      rfl
    exact applied ▸ operation .addUe ih
  | setSupi before u supi ih => exact operation (.setSupi u supi) ih
  | setGuti before u guti ih => exact operation (.setGuti u guti) ih
  | @addSession c c' u id psi before added ih =>
    have applied : ((Operation.addSession u psi).apply { context := c }).context = c' := by
      show (c.addSession u psi).elim c (·.2) = c'
      rw [added]
      rfl
    exact applied ▸ operation (.addSession u psi) ih
  | @describeUe c before u f describes ih =>
    have same : c.SameRegister (c.modifyUe u f) := by
      refine ⟨rfl, rfl, fun v => Table.map_get?_modify fun x => ?_, rfl⟩
      exact Prod.ext (describes x).1 (describes x).2.1
    exact ih.of_same same
  | @describeSession c before id f describes ih =>
    have same : c.SameRegister (c.modifySession id f) := ⟨rfl, rfl, fun _ => rfl, rfl⟩
    exact ih.of_same same

theorem Context.Reached.indexed {c : Context} (h : c.Reached) : c.Indexed := by
  obtain ⟨config, start, metrics, links, os, setUp, rfl⟩ := h
  exact Operation.run_keeps (P := fun n => n.context.Indexed) (fun o _ => o.indexed) os
    setUp.indexed

/-! ## Transfers that are parked -/

/-- The location of a transfer is made of the name of its UE. -/
theorem Step.location_of_park {n n' : Node} {u : Nat} {p : Parked} (step : Step (.park u p) n n') :
    ∃ x smRef, n'.context.ues.get? u = some x ∧
      p.location = Api.transferLocation n'.context.origin x.name smRef := by
  cases step with
  | @park _ id s x guti payload uri clients target session ue =>
    let paged := { x with pagingMessage := some (Ngap.Paging.octets { guti, tai := x.tai }) }
    refine ⟨paged, s.smRef, ?_, rfl⟩
    exact Table.get?_modify_of_some ue

namespace Routing

variable {r : Request} {n : Node} {location : String}

/-- **The location identifies the UE that is paged exactly if the UE is found by its name.** In any
context that an AMF can be in, whichever identity the path of a request names, a transfer that is
accepted is parked for the UE of that identity, and the location leads back to that UE if and only if
it is found by the first word of its name and the resource of transfers comes next. -/
theorem leads_to_parked_iff (reached : n.context.Reached)
    (accepted : (handle r n).1.Answers .accepted (some location)) :
    ∃ u p, r.addressee? n.context = some u ∧ n.Parks (handle r n).2 u p ∧ p.location = location ∧
      ((handle r n).2.context.Leads location u ↔ (handle r n).2.context.FoundByName u) := by
  obtain ⟨u, p, addressed, step, is⟩ := exists_parked reached accepted
  obtain ⟨x, smRef, hx, made⟩ := step.location_of_park
  have is : p.location = location := (Option.some.inj is).symm
  refine ⟨u, p, addressed, Node.parks_of_step step, is, ?_⟩
  rw [← is, made]
  exact Context.leads_iff (reached.indexed.of_same step.sameRegister) hx

/-- The hypotheses are satisfiable: the UE has a permanent identity of one word, and the location
leads back to it. -/
theorem leads_to_parked_iff_setUp :
    let n : Node := { context := .oneSession }
    let location := Api.transferLocation n.context.origin "imsi-1" none
    (n.context.Reached ∧ (handle .setUp n).1.Answers .accepted (some location)) ∧
      (handle .setUp n).2.context.Leads location 1 := by
  intro n location
  have reached : n.context.Reached := Context.reached_of_provisioned provisioned_oneSession
  have accepted : (handle .setUp n).1.Answers .accepted (some location) := ⟨_, rfl, rfl, rfl⟩
  refine ⟨⟨reached, accepted⟩, ?_⟩
  obtain ⟨u, p, addressed, -, -, leads⟩ := leads_to_parked_iff reached accepted
  cases addressed
  refine leads.2 ?_
  exact Context.foundByName_of_supi rfl rfl (by decide) (by decide) rfl

end Routing

/-! ## A UE without a permanent identity -/

/-- A context with one UE, which has a temporary identity only. -/
def Context.oneTemporary : Context :=
  ((Config.context default).addUe.elim (Config.context default) (·.2)).setGuti 1
    { plmn := .ofCodes "999" "70", amf := { region := 2, set := 1 }, tmsi := 7 }

/-- That UE with one session, of identity 5. -/
def Context.oneUnnamed : Context := (oneTemporary.addSession 1 5).elim oneTemporary (·.2)

theorem provisioned_oneUnnamed : Provisioned default Context.oneUnnamed := by
  have ue : Provisioned default Context.oneTemporary := .setGuti (.addUe (u := 1) .start rfl) 1 _
  have added : Context.oneTemporary.addSession 1 5 = some (1, Context.oneUnnamed) := rfl
  exact .addSession ue added

/-- A request to set session 5 up that names the UE by its temporary identity. -/
def Request.setUpTemporary : Request :=
  { Request.setUp with components := [Api.ueContexts, "5g-guti-9997002004000000007", Api.messages] }

/-- The request finds the UE by its temporary identity, and a transfer is parked for it; the location
does not lead back to it. -/
theorem Routing.not_leads_unnamed :
    let n : Node := { context := .oneUnnamed }
    let n' := (handle .setUpTemporary n).2
    let location := Api.transferLocation n.context.origin "Unknown" none
    n.context.Reached ∧ (handle .setUpTemporary n).1.Answers .accepted (some location) ∧
      Request.setUpTemporary.addressee? n.context = some 1 ∧
      (n'.context.parked.get? 1).map (·.location) = some location ∧ ¬n'.context.Leads location 1 := by
  intro n n' location
  have reached : n.context.Reached := Context.reached_of_provisioned provisioned_oneUnnamed
  refine ⟨reached, ⟨_, rfl, rfl, rfl⟩, rfl, rfl, fun leads => ?_⟩
  have indexed : n'.context.Indexed :=
    (Operation.handle (.request .setUpTemporary)).indexed reached.indexed
  have hx : n'.context.ues.get? 1 = some ((n'.context.ues.get? 1).getD {}) := rfl
  exact indexed.not_foundByName hx rfl ((Context.leads_iff indexed hx).1 leads)

end Amf
