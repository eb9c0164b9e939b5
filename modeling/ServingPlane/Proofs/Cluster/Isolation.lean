import ServingPlane.Proofs.Cluster.Renaming

/-! # Tasks beside each other

    What the orders for one task do to the objects of another.  Every call
    that an order makes is about one of the four keys of its spec, so an
    object at another key stays, whatever the server refuses.  Names that
    are derived from the names of tasks are apart; keys of two tasks meet
    only where one spec chose the name that the other's service or ingress
    has.  There nothing looks at the label before it deletes or replaces,
    and the object of the other task is lost. -/

namespace ServingPlane

open ClusterReconcile
open ObjectStore (nameOf)

/-! ## Keys that meet -/

namespace TaskSpec

variable {spec other : TaskSpec} {kind : ObjectKind}

/-- The name that a spec chose for its object of a kind; empty if it leaves it open. -/
def chosenName (s : TaskSpec) : ObjectKind → String
  | .service => s.service.name
  | .ingress => s.ingress.name
  | .deployment | .collector => ""

/-- A spec chose the name that the other's object of a kind has. -/
def TakesName (s other : TaskSpec) (kind : ObjectKind) : Prop :=
  s.chosenName kind ≠ "" ∧ s.chosenName kind = other.objectName kind

theorem objectName_of_chosen (h : spec.chosenName kind ≠ "") :
    spec.objectName kind = spec.chosenName kind := by
  cases kind with
  | service => exact if_neg fun hempty => h (String.isEmpty_iff.mp hempty)
  | ingress => exact if_neg fun hempty => h (String.isEmpty_iff.mp hempty)
  | deployment => exact absurd rfl h
  | collector => exact absurd rfl h

/-- Names that both specs leave open are as different as the tasks. -/
theorem name_eq_of_objectName_eq (hspec : spec.chosenName kind = "")
    (hother : other.chosenName kind = "") (h : spec.objectName kind = other.objectName kind) :
    spec.name = other.name := by
  cases kind with
  | deployment => exact h
  | collector => exact h
  | service =>
    have hs : spec.objectName .service = spec.name := if_pos (String.isEmpty_iff.mpr hspec)
    have ho : other.objectName .service = other.name := if_pos (String.isEmpty_iff.mpr hother)
    rw [← hs, ← ho, h]
  | ingress =>
    have hs : spec.objectName .ingress = spec.name ++ "-ingress" :=
      if_pos (String.isEmpty_iff.mpr hspec)
    have ho : other.objectName .ingress = other.name ++ "-ingress" :=
      if_pos (String.isEmpty_iff.mpr hother)
    rw [hs, ho] at h
    exact (String.append_left_inj _).mp h

/-- Keys of two tasks meet only where one of the specs chose the other's name. -/
theorem takesName_of_objectKey_eq (hname : spec.name ≠ other.name)
    (h : spec.objectKey kind = other.objectKey kind) :
    spec.clusterNamespace = other.clusterNamespace ∧
      (spec.TakesName other kind ∨ other.TakesName spec kind) := by
  have hobject : spec.objectName kind = other.objectName kind := congrArg ObjectKey.name h
  refine ⟨congrArg ObjectKey.space h, ?_⟩
  by_cases hspec : spec.chosenName kind = ""
  · by_cases hother : other.chosenName kind = ""
    · exact absurd (name_eq_of_objectName_eq hspec hother hobject) hname
    · exact .inr ⟨hother, (objectName_of_chosen hother).symm.trans hobject.symm⟩
  · exact .inl ⟨hspec, (objectName_of_chosen hspec).symm.trans hobject⟩

end TaskSpec

/-! ## Orders -/

/-- What the cluster is told about a task. -/
inductive TaskOrder where
  /-- Bring its objects into the state of a spec. -/
  | install (spec : TaskSpec)
  /-- Delete its objects. -/
  | remove (spec : TaskSpec)

namespace TaskOrder

/-- The spec that an order comes with. -/
def spec : TaskOrder → TaskSpec
  | install spec | remove spec => spec

/-- The program that carries an order out. -/
def program (ctx : ClusterContext) : TaskOrder → Program ClusterCall (Except BackendError Unit)
  | install spec => createOrUpdate ctx spec
  | remove spec => delete spec

/-- The order brings the object at a key into a state; one with a spec
    that cannot be met does nothing. -/
def Reaches (ctx : ClusterContext) (key : ObjectKey) : TaskOrder → Prop
  | install spec => spec.Owns ctx key
  | remove spec => spec.objectKey key.kind = key

theorem Reaches.objectKey {ctx : ClusterContext} {key : ObjectKey} {order : TaskOrder}
    (h : order.Reaches ctx key) : order.spec.objectKey key.kind = key := by
  cases order with
  | install spec => exact h.2
  | remove spec => exact h

end TaskOrder

/-! ## Servers that may fail -/

namespace ClusterCall

/-- The key that a call is about. -/
def key? : {α : Type} → ClusterCall α → Option ObjectKey
  | _, .get kind space name => some ⟨kind, space, name⟩
  | _, .create kind space object => some ⟨kind, space, nameOf object⟩
  | _, .replace kind space name _ => some ⟨kind, space, name⟩
  | _, .delete kind space name => some ⟨kind, space, name⟩
  | _, .listPods .. => none

/-- A call is about one of the task's keys. -/
def IsAbout (spec : TaskSpec) {α : Type} (call : ClusterCall α) : Prop :=
  ∃ kind, call.key? = some (spec.objectKey kind)

end ClusterCall

/-- A write is about the key of its manifest: what is created has the name
    that the manifest states. -/
theorem Manifest.key?_writeCall {spec : TaskSpec} (m : Manifest)
    (hname : m.metadata.name = spec.objectName m.kind) (seen : Option Json) :
    (m.writeCall spec seen).key? = some (spec.objectKey m.kind) := by
  cases seen with
  | none =>
    show some (ObjectKey.mk m.kind spec.clusterNamespace (nameOf m.document)) = _
    rw [m.nameOf_document, hname]
    rfl
  | some live => rfl

namespace ApiServer

variable {version : Versioning} {ctx : ClusterContext} {s t : ApiServer} {spec : TaskSpec}
  {key : ObjectKey}

/-- A server that may fail any call, before or after the call took effect. -/
def Failing (version : Versioning) : Environment ApiServer ClusterCall :=
  fun s call answer t => (answer, t) = s.serve version call ∨
    (∃ e, answer = call.failure e) ∧ (t = s ∨ t = (s.serve version call).2)

/-- A call changes at most the object that it is about. -/
theorem objects_serve_of_ne {α : Type} {call : ClusterCall α} (h : call.key? ≠ some key) :
    (s.serve version call).2.objects key = s.objects key := by
  have hput : ∀ {other : ObjectKey} {object : Json}, some other ≠ some key →
      (s.put version other object).objects key = s.objects key := fun hne =>
    Function.update_of_ne (fun heq => hne (congrArg some heq.symm)) _ _
  cases call with
  | get kind space name => rfl
  | create kind space object =>
    simp only [serve]
    split
    · rfl
    · exact hput h
  | replace kind space name object =>
    simp only [serve]
    split
    · rfl
    · split
      · rfl
      · split
        · rfl
        · exact hput h
  | delete kind space name =>
    show (s.remove ⟨kind, space, name⟩).objects key = s.objects key
    rw [objects_remove]
    exact Function.update_of_ne (fun heq => h (congrArg some heq.symm)) _ _
  | listPods space selector => rfl

theorem objects_of_failing {α : Type} {call : ClusterCall α} {answer : α}
    (h : Failing version s call answer t) (hkey : call.key? ≠ some key) :
    t.objects key = s.objects key := by
  have hserve : (s.serve version call).2.objects key = s.objects key := objects_serve_of_ne hkey
  rcases h with hserved | ⟨-, rfl | rfl⟩
  · rw [← hserved] at hserve
    exact hserve
  · rfl
  · exact hserve

/-! ## Orders keep to the keys of their spec -/

/-- The orders of a spec make calls about its keys only. -/
theorem guarded_order {env : Environment ApiServer ClusterCall} (order : TaskOrder) :
    (order.program ctx).Guarded env (fun _ call => call.IsAbout order.spec) s := by
  cases order with
  | install spec =>
    refine guarded_createOrUpdate (fun _ kind => ⟨kind, rfl⟩) (fun _ kind => ⟨kind, rfl⟩) ?_
    intro desired hdesired m hm _ seen _ _
    have hname : m.metadata.name = spec.objectName m.kind :=
      congrArg ObjectMetadata.name (TaskSpec.metadata_of_mem_desiredObjects hdesired hm)
    exact ⟨m.kind, m.key?_writeCall hname seen⟩
  | remove spec =>
    exact Program.guarded_bind.mpr
      ⟨guarded_deleteKinds (fun _ kind => ⟨kind, rfl⟩) _, fun refused u _ => trivial⟩

/-- Calls about the keys of a spec leave the objects at all other keys alone. -/
theorem objects_of_guarded {α : Type} {p : Program ClusterCall α} {a : α}
    (hguarded : p.Guarded (Failing version) (fun _ call => call.IsAbout spec) s)
    (hrun : p.Runs (Failing version) s a t) (hkey : ∀ kind, key ≠ spec.objectKey kind) :
    t.objects key = s.objects key := by
  refine Program.Guarded.keeps (P := fun u => u.objects key = s.objects key) ?_ hguarded hrun rfl
  rintro β call u v answer ⟨kind, habout⟩ hcall hu
  refine (objects_of_failing hcall ?_).trans hu
  rw [habout]
  exact fun heq => hkey kind (Option.some.inj heq).symm

/-- An order leaves what it does not reach as it was. -/
theorem objects_of_order {order : TaskOrder} {result : Except BackendError Unit}
    (h : (order.program ctx).Runs (Failing version) s result t) (hkey : ¬ order.Reaches ctx key) :
    t.objects key = s.objects key := by
  have hne : order.spec.objectKey key.kind ≠ key →
      ∀ kind, key ≠ order.spec.objectKey kind := by
    rintro hne kind rfl
    exact hne rfl
  cases order with
  | remove spec => exact objects_of_guarded (guarded_order (.remove spec)) h (hne hkey)
  | install spec =>
    cases hdesired : spec.desiredObjects ctx with
    | error e =>
      simp only [TaskOrder.program, createOrUpdate] at h
      rw [hdesired] at h
      obtain ⟨-, rfl⟩ := h
      rfl
    | ok desired =>
      have hown : spec.objectKey key.kind ≠ key := fun heq => hkey ⟨by rw [hdesired]; rfl, heq⟩
      exact objects_of_guarded (guarded_order (.install spec)) h (hne hown)

/-! ## Orders in a row -/

/-- One order after another may take a server from one state to another. -/
def Obeys (version : Versioning) (ctx : ClusterContext) :
    ApiServer → List TaskOrder → ApiServer → Prop
  | s, [], t => t = s
  | s, order :: orders, t => ∃ result u,
    (order.program ctx).Runs (Failing version) s result u ∧ Obeys version ctx u orders t

theorem objects_of_obeys {orders : List TaskOrder} (h : s.Obeys version ctx orders t)
    (hkey : ∀ order ∈ orders, ¬ order.Reaches ctx key) : t.objects key = s.objects key := by
  induction orders generalizing s with
  | nil =>
    obtain rfl := h
    rfl
  | cons order orders ih =>
    obtain ⟨result, u, horder, hrest⟩ := h
    exact (ih hrest fun other hother => hkey other (List.mem_cons_of_mem _ hother)).trans
      (objects_of_order horder (hkey order List.mem_cons_self))

/-- What a server holds that carried out every order in a row. -/
def obeyed (version : Versioning) (ctx : ClusterContext) (s : ApiServer)
    (orders : List TaskOrder) : ApiServer :=
  orders.foldl (fun t order => (run version (order.program ctx) t).2) s

/-- Such a server is one that may fail. -/
theorem obeys_obeyed (orders : List TaskOrder) :
    s.Obeys version ctx orders (obeyed version ctx s orders) := by
  induction orders generalizing s with
  | nil => rfl
  | cons order orders ih => exact ⟨_, _, runs_run_of_served (fun _ _ => .inl rfl) _, ih⟩

/-- Whatever stands where an order reached is the order's. -/
theorem carriesLabel_of_order {order : TaskOrder} {object : Json} (hreaches : order.Reaches ctx key)
    (h : (run version (order.program ctx) s).2.objects key = some object) :
    CarriesLabel order.spec.name object := by
  cases order with
  | remove spec =>
    have hempty : (run version (delete spec) s).2.objects key = none :=
      (objects_deleted s spec key).trans (if_pos hreaches)
    exact nomatch h.symm.trans hempty
  | install spec =>
    have hdocument : ((run version (createOrUpdate ctx spec) s).2.objects key).map unversioned
        = spec.documentOf? ctx key.kind := map_objects_createOrUpdate.trans (if_pos hreaches)
    rw [show (run version (createOrUpdate ctx spec) s).2.objects key = some object from h,
      TaskSpec.documentOf?] at hdocument
    cases hdesired : spec.desiredObjects ctx with
    | error e =>
      rw [hdesired] at hdocument
      cases hdocument
    | ok desired =>
      rw [hdesired] at hdocument
      obtain ⟨m, hfind, hm⟩ := Option.map_eq_some_iff.mp hdocument.symm
      have hlabel : CarriesLabel spec.name m.document := Manifest.carriesLabel_document
        (TaskSpec.metadata_of_mem_desiredObjects hdesired (List.mem_of_find?_eq_some hfind))
      rw [hm] at hlabel
      exact carriesLabel_unversioned.mp hlabel

/-- No object of a task stands at a key. -/
def Lacks (s : ApiServer) (task : String) (key : ObjectKey) : Prop :=
  ∀ object, s.objects key = some object → ¬ CarriesLabel task object

variable {first second : String} {orders : List TaskOrder}

theorem lacks_of_reaches {order : TaskOrder} (hname : order.spec.name ≠ second)
    (hreaches : order.Reaches ctx key) : (run version (order.program ctx) s).2.Lacks second key := by
  intro object hobject hlabel
  have hown : CarriesLabel order.spec.name object := carriesLabel_of_order hreaches hobject
  exact hname (Json.string.inj (Option.some.inj (hown.symm.trans hlabel)))

/-- Orders for one task do not bring back an object of another. -/
theorem Lacks.obeyed (h : s.Lacks second key)
    (hname : ∀ order ∈ orders, order.spec.name ≠ second) :
    (obeyed version ctx s orders).Lacks second key := by
  induction orders generalizing s with
  | nil => exact h
  | cons order orders ih =>
    refine ih ?_ fun other hother => hname other (List.mem_cons_of_mem _ hother)
    by_cases hreaches : order.Reaches ctx key
    · exact lacks_of_reaches (hname order List.mem_cons_self) hreaches
    · intro object hobject
      have hkept : (run version (order.program ctx) s).2.objects key = s.objects key :=
        objects_of_order (runs_run_of_served (fun _ _ => .inl rfl) _) hreaches
      exact h object (hkept.symm.trans hobject)

/-- Where one of the orders reached, the object of another task is lost. -/
theorem lacks_obeyed_of_reaches (hname : ∀ order ∈ orders, order.spec.name ≠ second)
    {order : TaskOrder} (horder : order ∈ orders) (hreaches : order.Reaches ctx key) :
    (obeyed version ctx s orders).Lacks second key := by
  induction orders generalizing s with
  | nil => cases horder
  | cons head orders ih =>
    have hrest : ∀ other ∈ orders, other.spec.name ≠ second := fun other hother =>
      hname other (List.mem_cons_of_mem _ hother)
    rcases List.mem_cons.mp horder with rfl | hlater
    · exact (lacks_of_reaches (hname order List.mem_cons_self) hreaches).obeyed hrest
    · exact ih hrest hlater

/-! ## Isolation -/

/-- A task whose service has the name of the task. -/
def gateway : TaskSpec := { TaskSpec.blank with name := "front", service := ⟨"", [80]⟩ }

/-- A server that was given the gateway. -/
def withGateway : ApiServer := (run counted (createOrUpdate behindNginx gateway) .empty).2

theorem withGateway_labelled {object : Json} (h : withGateway.objects key = some object) :
    CarriesLabel gateway.name object := by
  have happlied : (applied counted behindNginx .empty [gateway]).objects key = some object := h
  exact carriesLabel_of_applied (List.forall_mem_singleton.mpr rfl) happlied

theorem withGateway_service : ∃ object,
    withGateway.objects (gateway.objectKey .service) = some object := by
  obtain ⟨d, m, hdesired⟩ :
      ∃ d m, gateway.desiredObjects behindNginx = .ok [.deployment d, .service m] := ⟨_, _, rfl⟩
  have hinstalled : (reconciled counted .empty gateway _).Installed gateway _ :=
    installed_reconciled hdesired
  obtain ⟨object, hobject, -⟩ :=
    Option.map_eq_some_iff.mp (hinstalled.present (.service m) (.tail _ (.head _)))
  refine ⟨object, ?_⟩
  show (run counted (createOrUpdate behindNginx gateway) .empty).2.objects _ = _
  rw [run_createOrUpdate hdesired]
  exact hobject

/-- A task that chose the name of the gateway's service takes it away: its
    own service replaces it, and a spec without ports has it deleted. -/
theorem service_lost_to_chosen_name :
    exposed.name ≠ gateway.name ∧ withdrawn.name ≠ gateway.name ∧
      (∀ key object, withGateway.objects key = some object → CarriesLabel gateway.name object) ∧
      ∃ object, withGateway.objects (gateway.objectKey .service) = some object ∧
        (obeyed counted behindNginx withGateway [.install exposed]).objects
          (gateway.objectKey .service) ≠ some object ∧
        (obeyed counted behindNginx withGateway [.install withdrawn]).objects
          (gateway.objectKey .service) = none := by
  have hexposed : exposed.name ≠ gateway.name := by decide
  have hwithdrawn : withdrawn.name ≠ gateway.name := by decide
  refine ⟨hexposed, hwithdrawn, fun key object h => withGateway_labelled h, ?_⟩
  obtain ⟨object, hobject⟩ := withGateway_service
  refine ⟨object, hobject, ?_, ?_⟩
  · intro hkept
    have hreaches : (TaskOrder.install exposed).Reaches behindNginx (gateway.objectKey .service) :=
      ⟨rfl, rfl⟩
    have hlacks : (obeyed counted behindNginx withGateway [.install exposed]).Lacks gateway.name
        (gateway.objectKey .service) := lacks_of_reaches hexposed hreaches
    exact hlacks object hkept (withGateway_labelled hobject)
  · obtain ⟨d, hdesired⟩ : ∃ d, withdrawn.desiredObjects behindNginx = .ok [.deployment d] :=
      ⟨_, rfl⟩
    have hinstalled : (reconciled counted withGateway withdrawn _).Installed withdrawn _ :=
      installed_reconciled hdesired
    show (run counted (createOrUpdate behindNginx withdrawn) withGateway).2.objects _ = none
    rw [run_createOrUpdate hdesired]
    exact hinstalled.absent .service (List.forall_mem_singleton.mpr (by rintro ⟨⟩))

/-- Orders for one task leave every object alone that they do not reach,
    also on a server that fails calls; an object of another task that they
    reach is lost on a server that does not.  They reach where the other
    task keeps an object only if both are in one namespace and one of the
    specs chose the name that the other's object has. -/
theorem other_task_kept_iff_unreached (hne : first ≠ second)
    (hfirst : ∀ order ∈ orders, order.spec.name = first) :
    (s.Obeys version ctx orders t → ∀ key, (∀ order ∈ orders, ¬ order.Reaches ctx key) →
      t.objects key = s.objects key) ∧
    (∀ key object, s.objects key = some object → CarriesLabel second object →
      ((obeyed version ctx s orders).objects key = some object ↔
        ∀ order ∈ orders, ¬ order.Reaches ctx key)) ∧
    ∀ order ∈ orders, ∀ owner : TaskSpec, owner.name = second → ∀ kind,
      order.Reaches ctx (owner.objectKey kind) →
        order.spec.clusterNamespace = owner.clusterNamespace ∧
          (order.spec.TakesName owner kind ∨ owner.TakesName order.spec kind) := by
  have hother : ∀ order ∈ orders, order.spec.name ≠ second := fun order horder =>
    (hfirst order horder).trans_ne hne
  refine ⟨fun h key hkey => objects_of_obeys h hkey, ?_, ?_⟩
  · intro key object hobject hlabel
    constructor
    · intro hkept order horder hreaches
      exact lacks_obeyed_of_reaches hother horder hreaches object hkept hlabel
    · intro hkey
      exact (objects_of_obeys (obeys_obeyed orders) hkey).trans hobject
  · rintro order horder owner rfl kind hreaches
    exact TaskSpec.takesName_of_objectKey_eq (hother order horder) hreaches.objectKey

/-- Orders for a task that chose another name for its service. -/
def chatOrders : List TaskOrder := [.install moved, .install unexposed, .remove moved]

/-- The gateway's service stays, although it is in the same namespace. -/
theorem other_task_kept_iff_unreached_of_gateway :
    "chat" ≠ "front" ∧ (∀ order ∈ chatOrders, order.spec.name = "chat") ∧
      ∃ object, withGateway.objects (gateway.objectKey .service) = some object ∧
        (obeyed counted behindNginx withGateway chatOrders).objects (gateway.objectKey .service)
          = some object := by
  have hne : "chat" ≠ "front" := by decide
  have hfirst : ∀ order ∈ chatOrders, order.spec.name = "chat" := by
    simp [chatOrders, TaskOrder.spec, moved, unexposed, exposed]
  obtain ⟨object, hobject⟩ := withGateway_service
  obtain ⟨-, hkept, hmeet⟩ : _ ∧ (∀ key object, withGateway.objects key = some object →
        CarriesLabel "front" object →
        ((obeyed counted behindNginx withGateway chatOrders).objects key = some object ↔
          ∀ order ∈ chatOrders, ¬ order.Reaches behindNginx key)) ∧ _ :=
    other_task_kept_iff_unreached (t := withGateway) hne hfirst
  refine ⟨hne, hfirst, object, hobject, (hkept _ object hobject
    (withGateway_labelled hobject)).mpr fun order horder hreaches => ?_⟩
  obtain ⟨-, ⟨-, htakes⟩ | ⟨htakes, -⟩⟩ := hmeet order horder gateway rfl .service hreaches
  · revert htakes
    simp only [chatOrders, List.mem_cons, List.not_mem_nil, or_false] at horder
    rcases horder with rfl | rfl | rfl <;> decide
  · exact htakes rfl

end ApiServer

end ServingPlane
