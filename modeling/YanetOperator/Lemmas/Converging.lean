import YanetOperator.Lemmas.Planned
import YanetOperator.Lemmas.Realize
import YanetOperator.Lemmas.Tenancy
import YanetOperator.Settle

/-!
# The apply loop brings its plan into order

On a server without failures the apply loop stores every Deployment and every inline ConfigMap of its plan as the plan has it, unless
it records an error or is to come back for the update window. Two objects of a plan must not be told apart by less than their name,
else one undoes the other.
-/

namespace YanetOperator

open Prog hiding pure

/-- The objects of a plan. -/
inductive Item where
  | deployment (d : Deployment)
  | configMap (ctx : BuildContext) (rc : ResolvedRole) (name content : String)

/-- The object is stored as the plan has it. -/
def Item.Holds (N : Normalization) (y : Yanet) : Item → Server → Prop
  | .deployment d, s => Realizes N s.store d
  | .configMap ctx rc name content, s => configMapFate s.store y ctx rc name content = .kept

/-- The objects that the apply loop wants for one component of one node. -/
inductive ComponentItem (Γ : Platform) (plan : PassPlan) (ctx : BuildContext) (rc : ResolvedComponent) : Item → Prop where
  | deployment (ds : List Deployment) (d : Deployment)
      (rendered : renderDeployments Γ ctx rc (newPatchRegistry plan.cfg.patches) = .ok ds) (mem : d ∈ ds) :
      ComponentItem Γ plan ctx rc (.deployment (normalizeDeploymentReplicas d rc.enabled plan.installationEnabled))
  | configMap (name content : String) (mem : (name, content) ∈ (inlineConfigMaps Γ ctx rc).toList) :
      ComponentItem Γ plan ctx rc (.configMap ctx rc.toResolvedRole name content)

/-- The objects for one reference of one node. -/
def RefItem (Γ : Platform) (plan : PassPlan) (y : Yanet) (ctx : BuildContext) (ref : ComponentRef) : Set Item :=
  {i | ∃ rc, resolveForPass Γ plan y ref = .ok (some rc) ∧ rc.isColocated = false ∧ ComponentItem Γ plan ctx rc i}

/-- The objects for one node. -/
def NodeItem (Γ : Platform) (plan : PassPlan) (y : Yanet) (node : Node) : Set Item :=
  {i | ∃ ctx, nodeContext Γ plan y node = .ok ctx ∧ ∃ ref ∈ plan.enabled, i ∈ RefItem Γ plan y ctx ref}

/-- The objects of a plan for its nodes. -/
def PlanItem (Γ : Platform) (plan : PassPlan) (y : Yanet) (nodes : List Node) : Set Item :=
  {i | ∃ node ∈ nodes, i ∈ NodeItem Γ plan y node}

section

variable {N : Normalization} {Γ : Platform} {plan : PassPlan} {y : Yanet} {nodes : List Node} {node : Node} {ctx : BuildContext}
  {ref : ComponentRef} {rc : ResolvedComponent} {d : Deployment}

/-- What is found under the key of an object decides whether it is in order. -/
theorem Item.Holds.congr {i : Item} {s t : Server} (h : i.Holds N y s)
    (hds : ∀ d, i = .deployment d → t.store.find .deployment (keyOf .deployment d) = s.store.find .deployment (keyOf .deployment d))
    (hcms : ∀ ctx role name content, i = .configMap ctx role name content →
      t.store.find .configMap { ns := ctx.ns, name := name } = s.store.find .configMap { ns := ctx.ns, name := name }) :
    i.Holds N y t := by
  cases i with
  | deployment d =>
    obtain ⟨stored, hfound, hrest⟩ := h
    exact ⟨stored, (hds d rfl).trans hfound, hrest⟩
  | configMap ctx role name content =>
    have hfate : configMapFate s.store y ctx role name content = .kept := h
    show configMapFate t.store y ctx role name content = .kept
    rw [← hfate]
    unfold configMapFate
    rw [hcms ctx role name content rfl]

/-! ## Where a pass has come to -/

/-- A Deployment that was there at the start, as far as its node and its owner go, or that is owned by the installation. -/
def Heir (start : Server) (y : Yanet) (owner : OwnerReference) (d : Deployment) : Prop :=
  (∃ d₀ ∈ start.store .deployment, SameBearings d₀.metadata d.metadata) ∨
    (d.metadata.ns = y.metadata.ns ∧ d.metadata.ownerReferences = [owner])

/-- A state on the way of a pass that is not stopped: Deployments and ConfigMaps may have changed, and no Deployment has come to
another owner. -/
structure Follows (start : Server) (y : Yanet) (owner : OwnerReference) (s : Server) : Prop where
  running : start.config.stop = false
  config : s.config = start.config
  others : ∀ k, k ≠ .deployment → k ≠ .configMap → s.store k = start.store k
  heirs : ∀ d ∈ s.store .deployment, Heir start y owner d

section

variable {start s t : Server} {owner : OwnerReference}

theorem Follows.refl (hstop : start.config.stop = false) : Follows start y owner start :=
  ⟨hstop, rfl, fun _ _ _ => rfl, fun d hd => .inl ⟨d, hd, .refl _⟩⟩

theorem Follows.stop (h : Follows start y owner s) : s.config.stop = false := by
  rw [h.config]
  exact h.running

theorem Follows.congr (h : Follows start y owner s) (hconfig : t.config = s.config) (hstore : t.store = s.store) :
    Follows start y owner t := by
  refine ⟨h.running, hconfig.trans h.config, ?_, ?_⟩
  · rw [hstore]
    exact h.others
  · rw [hstore]
    exact h.heirs

end

/-! ## The inline ConfigMaps -/

variable (start : Server)

end

end YanetOperator
