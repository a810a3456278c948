import YanetOperator.Controller.SharedServices

/-!
# The calls of the parts of a pass

For every part of a pass: which calls it issues, and what it has read and checked before each write. A part is described by the
calls it permits given the trace so far; a write is permitted only directly after a check that the stop is not set.
-/

namespace YanetOperator

open Prog

/-- The trace of a pass. -/
abbrev PassTrace := Trace Api

/-- A call that changes nothing. -/
def Op.isRead : Op → Bool
  | .get _ _ | .list _ _ _ | .dryRun _ | .checkStop | .snapshot | .requeue _ _ | .now => true
  | .create _ _ | .update _ _ | .updateStatus _ | .delete _ _ _ | .event _ _ => false

/-- A call that writes a Deployment and does not delete it. -/
def Op.writesDeployment : Op → Bool
  | .create .deployment _ | .update .deployment _ => true
  | _ => false

/-- The call was issued and answered. -/
def Saw (tr : PassTrace) (c : Op) (r : c.Answer) : Prop := (⟨c, r⟩ : Event Api) ∈ tr

/-- The call was issued and answered, and no Deployment was written since. -/
def SawSince (tr : PassTrace) (c : Op) (r : c.Answer) : Prop :=
  ∃ later earlier, tr = later ++ (⟨c, r⟩ : Event Api) :: earlier ∧ ∀ e ∈ later, Op.writesDeployment e.1 = false

/-- The first call was issued and answered, then the second, and no Deployment was written since the first. -/
def SawThen (tr : PassTrace) (c : Op) (r : c.Answer) (c' : Op) (r' : c'.Answer) : Prop :=
  ∃ later earlier, tr = later ++ (⟨c', r'⟩ : Event Api) :: earlier ∧ SawSince earlier c r ∧
    Op.writesDeployment c' = false ∧ ∀ e ∈ later, Op.writesDeployment e.1 = false

/-- The call was issued and answered, and nothing was written since. -/
def SawFresh (tr : PassTrace) (c : Op) (r : c.Answer) : Prop :=
  ∃ later earlier, tr = later ++ (⟨c, r⟩ : Event Api) :: earlier ∧ ∀ e ∈ later, Op.isRead e.1 = true

/-- The last call was a check of the stop, and it was not set. -/
def Armed (tr : PassTrace) : Prop := ∃ earlier, tr = (⟨Op.checkStop, false⟩ : Event Api) :: earlier

section

variable {tr : PassTrace} {c : Op} {r : c.Answer} {e : Event Api}

theorem Saw.cons (h : Saw tr c r) : Saw (e :: tr) c r := List.mem_cons_of_mem _ h

theorem Saw.head : Saw (⟨c, r⟩ :: tr) c r := List.mem_cons_self

theorem SawSince.saw (h : SawSince tr c r) : Saw tr c r := by
  obtain ⟨later, earlier, rfl, -⟩ := h
  exact List.mem_append_right _ List.mem_cons_self

theorem SawSince.head : SawSince (⟨c, r⟩ :: tr) c r :=
  ⟨[], tr, rfl, fun _ h => absurd h List.not_mem_nil⟩

theorem SawSince.cons (h : SawSince tr c r) (he : Op.writesDeployment e.1 = false) : SawSince (e :: tr) c r := by
  obtain ⟨later, earlier, rfl, hl⟩ := h
  refine ⟨e :: later, earlier, rfl, fun x hx => ?_⟩
  rcases List.mem_cons.1 hx with rfl | hx
  · exact he
  · exact hl x hx

theorem SawThen.head {c' : Op} {r' : c'.Answer} (h : SawSince tr c r) (hc : Op.writesDeployment c' = false) :
    SawThen (⟨c', r'⟩ :: tr) c r c' r' :=
  ⟨[], tr, rfl, h, hc, fun _ h => absurd h List.not_mem_nil⟩

theorem SawThen.cons {c' : Op} {r' : c'.Answer} (h : SawThen tr c r c' r') (he : Op.writesDeployment e.1 = false) :
    SawThen (e :: tr) c r c' r' := by
  obtain ⟨later, earlier, rfl, hs, hc, hl⟩ := h
  exact ⟨e :: later, earlier, rfl, hs, hc, List.forall_mem_cons.2 ⟨he, hl⟩⟩

theorem SawThen.since {c' : Op} {r' : c'.Answer} (h : SawThen tr c r c' r') : SawSince tr c r := by
  obtain ⟨later, earlier, rfl, ⟨later', earlier', rfl, hl'⟩, hc, hl⟩ := h
  refine ⟨later ++ ⟨c', r'⟩ :: later', earlier', by simp, ?_⟩
  exact List.forall_mem_append.2 ⟨hl, List.forall_mem_cons.2 ⟨hc, hl'⟩⟩

theorem SawThen.saw {c' : Op} {r' : c'.Answer} (h : SawThen tr c r c' r') : Saw tr c' r' := by
  obtain ⟨later, earlier, rfl, -⟩ := h
  exact List.mem_append_right _ List.mem_cons_self

theorem SawFresh.head : SawFresh (⟨c, r⟩ :: tr) c r :=
  ⟨[], tr, rfl, fun _ h => absurd h List.not_mem_nil⟩

theorem SawFresh.cons (h : SawFresh tr c r) (he : Op.isRead e.1 = true) : SawFresh (e :: tr) c r := by
  obtain ⟨later, earlier, rfl, hl⟩ := h
  refine ⟨e :: later, earlier, rfl, fun x hx => ?_⟩
  rcases List.mem_cons.1 hx with rfl | hx
  · exact he
  · exact hl x hx

theorem Armed.head : Armed (⟨Op.checkStop, false⟩ :: tr) := ⟨tr, rfl⟩

end

/-! ## Single calls -/

section

variable {α β : Type} {G : PassTrace → Op → Prop} {tr : PassTrace}

/-- A part of a pass is permitted to read. -/
def Reads (G : PassTrace → Op → Prop) : Prop := ∀ tr c, Op.isRead c = true → G tr c

theorem safe_issue {c : Op} {Q : c.Answer → PassTrace → Prop} (hG : G tr c) (hQ : ∀ r, Q r (⟨c, r⟩ :: tr)) :
    Safe tracing G Q (issue c) tr :=
  safe_tracing_perform hG hQ

theorem safe_issue_bind {c : Op} {Q : β → PassTrace → Prop} {f : c.Answer → Pass β} (hG : G tr c)
    (hf : ∀ r, Safe tracing G Q (f r) (⟨c, r⟩ :: tr)) : Safe tracing G Q (issue c >>= f) tr :=
  ⟨hG, by rintro r _ rfl; exact hf r⟩

theorem safe_attempt {p : Pass (Except ApiError α)} {Q : Except Err α → PassTrace → Prop}
    (h : Safe tracing G (fun r tr => Q (r.mapError Err.api) tr) p tr) : Safe tracing G Q (attempt p).run tr := by
  refine Safe.bind h fun r t hr => ?_
  cases r with
  | ok a => exact hr
  | error e => exact hr

theorem safe_getObj (hread : Reads G) {k : Kind} {key : Key} {Q : Except Err (Obj k) → PassTrace → Prop}
    (hok : ∀ o, Q (.ok o) (⟨.get k key, .ok o⟩ :: tr)) (herr : ∀ e, Q (.error (.api e)) (⟨.get k key, .error e⟩ :: tr)) :
    Safe tracing G Q (getObj k key).run tr := by
  refine safe_attempt (safe_issue (hread _ _ rfl) fun r => ?_)
  cases r with
  | ok o => exact hok o
  | error e => exact herr e

theorem safe_listObjs (hread : Reads G) {k : Kind} {ns : Option String} {labels : StrMap String}
    {Q : Except Err (List (Obj k)) → PassTrace → Prop} (hok : ∀ os, Q (.ok os) (⟨.list k ns labels, .ok os⟩ :: tr))
    (herr : ∀ e, Q (.error (.api e)) (⟨.list k ns labels, .error e⟩ :: tr)) :
    Safe tracing G Q (listObjs k ns labels).run tr := by
  refine safe_attempt (safe_issue (hread _ _ rfl) fun r => ?_)
  cases r with
  | ok os => exact hok os
  | error e => exact herr e

theorem safe_checkGlobalStop (hread : Reads G) {Q : Except Err Unit → PassTrace → Prop}
    (hok : Q (.ok ()) (⟨.checkStop, false⟩ :: tr)) (herr : Q (.error errGlobalStop) (⟨.checkStop, true⟩ :: tr)) :
    Safe tracing G Q checkGlobalStop.run tr := by
  refine safe_issue_bind (hread _ _ rfl) fun r => ?_
  cases r with
  | true => exact herr
  | false => exact hok

/-- A body is retried on a conflict: what holds after every attempt holds at the end. -/
theorem safe_retryOnConflict {body : TryPass α} {J : α → PassTrace → Prop} {A : PassTrace → Prop}
    (hbody : ∀ tr, A tr → Safe tracing G (onResult J fun _ tr => A tr) body.run tr) (n : Nat) (h : A tr) :
    Safe tracing G (onResult J fun _ tr => A tr) (retryOnConflict body n).run tr := by
  induction n generalizing tr with
  | zero => exact hbody tr h
  | succ n ih =>
    refine Safe.bind (hbody tr h) fun r t hr => ?_
    cases r with
    | ok a => exact hr
    | error e =>
      dsimp only
      split
      · exact ih hr
      · exact hr

end

/-! ## Reads and events -/

/-- A part that only reads. -/
def ReadsOnly {α : Type} (p : Pass α) : Prop :=
  ∀ tr, Safe tracing (fun _ c => Op.isRead c = true) (fun _ _ => True) p tr

/-- An assertion about the trace that reads keep. -/
def KeptByReads (A : PassTrace → Prop) : Prop := ∀ tr (c : Op) (r : c.Answer), Op.isRead c = true → A tr → A (⟨c, r⟩ :: tr)

theorem ReadsOnly.keeps {α : Type} {p : Pass α} {G : PassTrace → Op → Prop} {A : PassTrace → Prop} {tr : PassTrace}
    (hp : ReadsOnly p) (hread : Reads G) (hA : KeptByReads A) (h : A tr) : Safe tracing G (fun _ tr => A tr) p tr :=
  ((hp tr).frame A (fun tr c r hc => hA tr c r hc) h).mono (fun tr c hc => hread tr c hc.1) fun _ _ hq => hq.2

theorem saw_keptByReads {c : Op} {r : c.Answer} : KeptByReads fun tr => Saw tr c r := fun _ _ _ _ h => h.cons

theorem readsOnly_degraded (reason message : String) (fresh : Yanet) : ReadsOnly (degraded reason message fresh) :=
  fun _ => safe_issue_bind rfl fun _ => trivial

/-- The calls of `recordEvent`. -/
inductive EventCall (tr : PassTrace) : Op → Prop where
  | read {c : Op} (h : Op.isRead c = true) : EventCall tr c
  | event (reason note : String) (armed : Armed tr) : EventCall tr (.event reason note)

theorem safe_recordEvent (reason note : String) (tr : PassTrace) :
    Safe tracing EventCall (fun _ _ => True) (recordEvent reason note) tr := by
  refine safe_issue_bind (.read rfl) fun stop => ?_
  cases stop with
  | true => trivial
  | false => exact safe_issue (.event reason note .head) fun _ => trivial

/-! ## Status -/

/-- The calls of `updateStatus`. -/
inductive StatusCall (y : Yanet) (tr : PassTrace) : Op → Prop where
  | read {c : Op} (h : Op.isRead c = true) : StatusCall y tr c
  | write (fresh : Yanet) (status : YanetStatus) (armed : Armed tr) (saw : Saw tr (.get .yanet (keyOf .yanet y)) (.ok fresh)) :
      StatusCall y tr (.updateStatus { fresh with status := status })

theorem safe_updateStatus (y : Yanet) {mutate : Yanet → Pass YanetStatus} (hm : ∀ fresh, ReadsOnly (mutate fresh))
    (tr : PassTrace) : Safe tracing (StatusCall y) (fun _ _ => True) (updateStatus y mutate).run tr := by
  have hread : Reads (StatusCall y) := fun _ _ h => .read h
  have honce : ∀ tr, True → Safe tracing (StatusCall y) (onResult (fun _ _ => True) fun _ _ => True)
      (updateStatusOnce y mutate).run tr := by
    intro tr _
    refine Safe.tryBind (safe_getObj hread (fun fresh => Saw.head) fun _ => trivial) fun fresh tr hsaw => ?_
    refine Safe.tryBind (J := fun _ tr => Saw tr (.get .yanet (keyOf .yanet y)) (.ok fresh))
      (Safe.tryLift ((hm fresh).keeps hread saw_keptByReads hsaw)) fun status tr hsaw => ?_
    split
    · trivial
    · refine Safe.tryBind (J := fun _ tr => Armed tr ∧ Saw tr (.get .yanet (keyOf .yanet y)) (.ok fresh))
        (safe_checkGlobalStop hread ⟨.head, hsaw.cons⟩ trivial) fun _ tr ⟨harmed, hsaw⟩ => ?_
      refine safe_attempt (safe_issue (.write fresh status harmed hsaw) fun r => ?_)
      cases r <;> trivial
  refine (safe_retryOnConflict honce defaultRetries trivial).post fun _ _ _ => trivial

/-! ## Inline ConfigMaps -/

/-- The metadata of one version of an object: what the server checks before a write. -/
structure SameVersion (m m' : ObjectMeta) : Prop where
  name : m'.name = m.name
  ns : m'.ns = m.ns
  uid : m'.uid = m.uid
  resourceVersion : m'.resourceVersion = m.resourceVersion

/-- The ConfigMap under a key was read, or it was created. -/
def Ensured (tr : PassTrace) (key : Key) : Prop :=
  (∃ cm, Saw tr (.get .configMap key) (.ok cm)) ∨
    ∃ cm : ConfigMap, keyOf .configMap cm = key ∧ Saw tr (.create .configMap cm) (.ok ())

/-- The calls of `applyInlineConfigMaps`. -/
inductive InlineCall (y : Yanet) (tr : PassTrace) : Op → Prop where
  | read {c : Op} (h : Op.isRead c = true) : InlineCall y tr c
  | create (cm : ConfigMap) (armed : Armed tr) : InlineCall y tr (.create .configMap cm)
  | update (key : Key) (existing cm : ConfigMap) (armed : Armed tr) (saw : Saw tr (.get .configMap key) (.ok existing))
      (owned : existing.metadata.resourceVersion ≠ 0 → controlledByYanet existing.metadata y = true)
      (same : SameVersion existing.metadata cm.metadata) : InlineCall y tr (.update .configMap cm)

theorem Ensured.cons {tr : PassTrace} {key : Key} {e : Event Api} (h : Ensured tr key) : Ensured (e :: tr) key := by
  rcases h with ⟨cm, h⟩ | ⟨cm, hk, h⟩
  · exact Or.inl ⟨cm, h.cons⟩
  · exact Or.inr ⟨cm, hk, h.cons⟩

theorem setControllerReference_ok {m m' : ObjectMeta} {owner : OwnerReference} (h : setControllerReference m owner = .ok m') :
    SameVersion m m' := by
  unfold setControllerReference at h
  split at h
  · cases h
  · cases h
    exact ⟨rfl, rfl, rfl, rfl⟩

/-- The mutation keeps the version, refuses a foreign ConfigMap, and ends with a check of the stop. -/
theorem safe_mutateConfigMap {G : PassTrace → Op → Prop} (hread : Reads G) (y : Yanet) (ctx : BuildContext) (rc : ResolvedRole)
    (content : String) (cm : ConfigMap) {A : PassTrace → Prop} (hA : KeptByReads A) {tr : PassTrace} (h : A tr) :
    Safe tracing G (onResult (fun cm' tr => Armed tr ∧ A tr ∧ SameVersion cm.metadata cm'.metadata ∧
      (cm.metadata.resourceVersion ≠ 0 → controlledByYanet cm.metadata y = true)) fun _ _ => True)
      (mutateConfigMap y ctx rc content cm).run tr := by
  unfold mutateConfigMap
  by_cases hforeign : cm.metadata.resourceVersion ≠ 0 ∧ controlledByYanet cm.metadata y = false
  · rw [if_pos hforeign]
    trivial
  · rw [if_neg hforeign]
    have howned : cm.metadata.resourceVersion ≠ 0 → controlledByYanet cm.metadata y = true := by
      intro hrv
      by_contra hc
      exact hforeign ⟨hrv, by simpa using hc⟩
    dsimp only
    cases hm : setControllerReference (fillConfigMap ctx rc content cm).metadata (controllerRef y) with
    | error e => trivial
    | ok m =>
      have hsame := setControllerReference_ok hm
      dsimp only
      refine Safe.tryBind (J := fun _ tr => Armed tr ∧ A tr)
        (safe_checkGlobalStop hread ⟨.head, hA _ _ _ rfl h⟩ trivial) fun _ tr ht => ?_
      exact ⟨ht.1, ht.2, ⟨hsame.name, hsame.ns, hsame.uid, hsame.resourceVersion⟩, howned⟩

theorem keyOf_configMap_eq {a b : ConfigMap} (h : SameVersion a.metadata b.metadata) :
    keyOf .configMap b = keyOf .configMap a := by
  simp [keyOf, metaOf, h.name, h.ns]

theorem safe_createOrUpdate (y : Yanet) (ctx : BuildContext) (rc : ResolvedRole) (content : String) (cm : ConfigMap)
    (tr : PassTrace) :
    Safe tracing (InlineCall y) (onResult (fun _ tr => Ensured tr (keyOf .configMap cm)) fun _ _ => True)
      (createOrUpdate cm (mutateConfigMap y ctx rc content)).run tr := by
  have hread : Reads (InlineCall y) := fun _ _ h => .read h
  refine safe_issue_bind (.read rfl) fun r => ?_
  cases r with
  | error e =>
    dsimp only
    split
    · refine Safe.tryBind (safe_mutateConfigMap hread y ctx rc content cm (A := fun _ => True) (fun _ _ _ _ _ => trivial) trivial)
        fun cm' tr hcm => ?_
      refine safe_attempt (safe_issue (.create cm' hcm.1) fun r => ?_)
      cases r with
      | error e => trivial
      | ok u => exact Or.inr ⟨cm', keyOf_configMap_eq hcm.2.2.1, .head⟩
    · trivial
  | ok existing =>
    refine Safe.tryBind (safe_mutateConfigMap hread y ctx rc content existing
      (saw_keptByReads (c := .get .configMap (keyOf .configMap cm)) (r := .ok existing)) .head) fun cm' tr hcm => ?_
    have hensured : Ensured tr (keyOf .configMap cm) := Or.inl ⟨existing, hcm.2.1⟩
    split
    · exact hensured
    · refine safe_attempt (safe_issue (.update _ existing cm' hcm.1 hcm.2.1 hcm.2.2.2 hcm.2.2.1) fun r => ?_)
      cases r with
      | error e => trivial
      | ok u => exact hensured.cons

theorem safe_applyInlineConfigMap (y : Yanet) (ctx : BuildContext) (rc : ResolvedRole) (autoSync : Bool) (name content : String)
    (tr : PassTrace) :
    Safe tracing (InlineCall y)
      (onResult (fun _ tr => autoSync = true → Ensured tr { ns := ctx.ns, name := name }) fun _ _ => True)
      (applyInlineConfigMap y ctx rc autoSync name content).run tr := by
  unfold applyInlineConfigMap
  dsimp only
  cases autoSync with
  | true =>
    rw [if_pos rfl]
    refine Safe.bind (safe_createOrUpdate y ctx rc content (desiredConfigMap ctx rc name content) tr) fun r tr hr => ?_
    cases r with
    | error e => trivial
    | ok u => exact fun _ => hr
  | false =>
    rw [if_neg Bool.false_ne_true]
    refine safe_issue_bind (.read rfl) fun r => ?_
    cases r with
    | ok existing => exact fun h => absurd h Bool.false_ne_true
    | error e =>
      dsimp only
      split
      · exact fun h => absurd h Bool.false_ne_true
      · trivial

/-- Every ConfigMap of the component is ensured before the names are returned. -/
theorem safe_applyInlineConfigMaps (Γ : Platform) (y : Yanet) (ctx : BuildContext) (rc : ResolvedComponent) (autoSync : Bool)
    (tr : PassTrace) :
    Safe tracing (InlineCall y)
      (onResult (fun _ tr => autoSync = true → ∀ name ∈ (inlineConfigMaps Γ ctx rc).keys, Ensured tr { ns := ctx.ns, name := name })
        fun _ _ => True)
      (applyInlineConfigMaps Γ y ctx rc autoSync).run tr := by
  have hloop (f : Bool → String × String → TryPass Bool)
      (hf : ∀ drift e tr, Safe tracing (InlineCall y)
        (onResult (fun _ tr => autoSync = true → Ensured tr { ns := ctx.ns, name := e.1 }) fun _ _ => True) (f drift e).run tr)
      (l : List (String × String)) (drift : Bool) (tr : PassTrace) :
      Safe tracing (InlineCall y)
        (onResult (fun _ tr => autoSync = true → ∀ e ∈ l, Ensured tr { ns := ctx.ns, name := e.1 }) fun _ _ => True)
        (l.foldlM f drift).run tr := by
    induction l generalizing drift tr with
    | nil => exact fun _ _ he => absurd he List.not_mem_nil
    | cons e l ih =>
      rw [List.foldlM_cons]
      refine Safe.tryBind (hf drift e tr) fun drift tr hd => ?_
      -- what was ensured for the first stays ensured while the rest is applied
      have hrest := (ih drift tr).frame (fun tr => autoSync = true → Ensured tr { ns := ctx.ns, name := e.1 })
        (fun _ _ _ _ h ha => (h ha).cons) hd
      refine hrest.mono (fun _ _ h => h.1) fun r tr hr => ?_
      cases r with
      | error e => trivial
      | ok b =>
        intro ha x hx
        rcases List.mem_cons.1 hx with rfl | hx
        · exact hr.2 ha
        · exact hr.1 ha x hx
  refine Safe.tryBind (hloop _ (fun drift e tr => ?_) _ _ _) fun drift tr h ha name hn => ?_
  · exact Safe.tryBind (safe_applyInlineConfigMap y ctx rc.toResolvedRole autoSync e.1 e.2 tr) fun d tr hd => hd
  rw [← Std.ExtTreeMap.map_fst_toList_eq_keys] at hn
  obtain ⟨e, he, rfl⟩ := List.mem_map.1 hn
  exact h ha e he

/-! ## Deployments -/

/-- A Deployment as it is created: its own keys are recorded as managed. -/
def managedDeployment (desired : Deployment) : Deployment :=
  { desired with metadata := mergeManagedMeta desired.metadata desired.metadata }

/-- The calls of `applyDeployment`. -/
inductive DeploymentCall (desired : Deployment) (autoSync : Bool) (tr : PassTrace) : Op → Prop where
  | read {c : Op} (h : Op.isRead c = true) : DeploymentCall desired autoSync tr c
  | create (sync : autoSync = true) (armed : Armed tr) :
      DeploymentCall desired autoSync tr (.create .deployment (managedDeployment desired))
  | update (fresh d : Deployment) (sync : autoSync = true) (armed : Armed tr)
      (saw : Saw tr (.get .deployment (keyOf .deployment desired)) (.ok fresh))
      (owned : validateDeploymentOwnership fresh desired = .ok ())
      (normalized : Saw tr (.dryRun (deploymentCandidate fresh desired)) (.ok d)) :
      DeploymentCall desired autoSync tr (.update .deployment d)

/-- The candidate of an update is what a dry run of it answered. -/
theorem safe_desiredDeploymentUpdate {G : PassTrace → Op → Prop} (hread : Reads G) (existing desired : Deployment)
    {A : PassTrace → Prop} (hA : KeptByReads A) {tr : PassTrace} (h : A tr) :
    Safe tracing G (onResult (fun o tr => A tr ∧ ∀ d, o = some d → Saw tr (.dryRun (deploymentCandidate existing desired)) (.ok d))
      fun _ _ => True) (desiredDeploymentUpdate existing desired).run tr := by
  unfold desiredDeploymentUpdate
  dsimp only
  split
  · refine ⟨h, fun d hd => ?_⟩
    cases hd
  · refine Safe.tryBind (J := fun _ tr => A tr) (safe_checkGlobalStop hread (hA _ _ _ rfl h) trivial) fun _ tr h => ?_
    refine Safe.tryBind (J := fun d tr => A tr ∧ Saw tr (.dryRun (deploymentCandidate existing desired)) (.ok d)) ?_
      fun normalized tr hn => ?_
    · refine safe_issue_bind (hread _ _ rfl) fun r => ?_
      cases r with
      | ok d => exact ⟨hA _ _ _ rfl h, .head⟩
      | error e => trivial
    · refine ⟨hn.1, fun d hd => ?_⟩
      split at hd
      · cases hd
        exact hn.2
      · cases hd

theorem safe_updateDeploymentOnce (desired : Deployment) (autoSync : Bool) (updateWindow : Int) (nodeName : String)
    (tr : PassTrace) :
    Safe tracing (DeploymentCall desired autoSync) (onResult (fun _ _ => True) fun _ _ => True)
      (updateDeploymentOnce desired autoSync updateWindow nodeName).run tr := by
  have hread : Reads (DeploymentCall desired autoSync) := fun _ _ h => .read h
  unfold updateDeploymentOnce
  refine Safe.tryBind (safe_getObj hread (fun fresh => Saw.head) fun _ => trivial) fun fresh tr hsaw => ?_
  cases howned : validateDeploymentOwnership fresh desired with
  | error e => trivial
  | ok u =>
    refine Safe.tryBind (safe_desiredDeploymentUpdate hread fresh desired saw_keptByReads hsaw) fun o tr ho => ?_
    cases o with
    | none => trivial
    | some candidate =>
      have hdry := ho.2 candidate rfl
      dsimp only
      split
      · trivial
      · next hsync =>
        refine Safe.tryBind (J := fun _ tr => Saw tr (.get .deployment (keyOf .deployment desired)) (.ok fresh) ∧
            Saw tr (.dryRun (deploymentCandidate fresh desired)) (.ok candidate))
          (Safe.tryLift (safe_issue (hread _ _ rfl) fun _ => ⟨ho.1.cons, hdry.cons⟩)) fun requeue tr h => ?_
        split
        · trivial
        · refine Safe.tryBind (J := fun _ tr => Armed tr ∧ Saw tr (.get .deployment (keyOf .deployment desired)) (.ok fresh) ∧
              Saw tr (.dryRun (deploymentCandidate fresh desired)) (.ok candidate))
            (safe_checkGlobalStop hread ⟨.head, h.1.cons, h.2.cons⟩ trivial) fun _ tr h => ?_
          refine Safe.tryBind (J := fun _ _ => True) (safe_attempt (safe_issue
            (.update fresh candidate (by simpa using hsync) h.1 h.2.1 howned h.2.2) fun r => ?_)) fun _ _ _ => trivial
          cases r <;> trivial

theorem safe_createDeployment (desired : Deployment) (autoSync : Bool) (tr : PassTrace) :
    Safe tracing (DeploymentCall desired autoSync) (fun _ _ => True) (createDeployment desired autoSync) tr := by
  unfold createDeployment
  split
  · trivial
  · next hsync =>
    refine Safe.bind (safe_checkGlobalStop (fun _ _ h => .read h)
      (show onResult (fun _ tr => Armed tr) (fun _ _ => True) (.ok ()) _ from .head) trivial) fun r tr hr => ?_
    cases r with
    | error e => trivial
    | ok u =>
      refine safe_issue_bind (.create (by simpa using hsync) hr) fun r => ?_
      cases r <;> trivial

theorem safe_applyDeployment (desired : Deployment) (autoSync : Bool) (updateWindow : Int) (nodeName : String) (tr : PassTrace) :
    Safe tracing (DeploymentCall desired autoSync) (fun _ _ => True)
      (applyDeployment desired autoSync updateWindow nodeName) tr := by
  unfold applyDeployment
  refine safe_issue_bind (.read rfl) fun r => ?_
  cases r with
  | error e =>
    dsimp only
    split
    · exact safe_createDeployment desired autoSync _
    · trivial
  | ok existing =>
    dsimp only
    cases validateDeploymentOwnership existing desired with
    | error e => trivial
    | ok u =>
      refine Safe.bind (safe_retryOnConflict (A := fun _ => True)
        (fun tr _ => safe_updateDeploymentOnce desired autoSync updateWindow nodeName tr) defaultRetries trivial) fun r tr _ => ?_
      cases r <;> trivial

/-! ## Releasing nodes -/

/-- The list of the Deployments in the namespace of an installation. -/
abbrev listsDeployments (y : Yanet) : Op := .list .deployment (some y.metadata.ns) ∅

/-- The calls of `pruneConflictingDeployments`. -/
inductive ReleaseCall (y : Yanet) (tr : PassTrace) : Op → Prop where
  | read {c : Op} (h : Op.isRead c = true) : ReleaseCall y tr c
  | drain (ds : List Deployment) (d : Deployment) (armed : Armed tr) (saw : Saw tr (listsDeployments y) (.ok ds)) (mem : d ∈ ds)
      (owned : controlledByYanet d.metadata y = true) : ReleaseCall y tr (.update .deployment (drained d))
  | delete (ds : List Deployment) (d : Deployment) (armed : Armed tr) (saw : Saw tr (listsDeployments y) (.ok ds)) (mem : d ∈ ds)
      (owned : controlledByYanet d.metadata y = true) : ReleaseCall y tr (.delete .deployment d true)

theorem safe_pruneConflictingDeployment {y : Yanet} (nodeNames : List String) {ds : List Deployment} {d : Deployment}
    (hd : d ∈ ds) {tr : PassTrace} (h : Saw tr (listsDeployments y) (.ok ds)) :
    Safe tracing (ReleaseCall y) (onResult (fun _ tr => Saw tr (listsDeployments y) (.ok ds)) fun _ _ => True)
      (pruneConflictingDeployment y nodeNames d).run tr := by
  have hread : Reads (ReleaseCall y) := fun _ _ h => .read h
  unfold pruneConflictingDeployment
  split
  · exact h
  · next hlive =>
    have howned : controlledByYanet d.metadata y = true := by
      rw [not_or] at hlive
      simpa using hlive.1
    split
    · split
      · exact h
      · refine Safe.tryBind (J := fun _ tr => Armed tr ∧ Saw tr (listsDeployments y) (.ok ds))
          (safe_checkGlobalStop hread ⟨.head, h.cons⟩ trivial) fun _ tr ht => ?_
        refine safe_issue_bind (.drain ds d ht.1 ht.2 hd howned) fun r => ?_
        cases r with
        | ok u => exact ht.2.cons
        | error e => trivial
    · refine Safe.tryBind (J := fun _ tr => Armed tr ∧ Saw tr (listsDeployments y) (.ok ds))
        (safe_checkGlobalStop hread ⟨.head, h.cons⟩ trivial) fun _ tr ht => ?_
      refine safe_issue_bind (.delete ds d ht.1 ht.2 hd howned) fun r => ?_
      cases r with
      | ok u => exact ht.2.cons
      | error e =>
        dsimp only
        split
        · exact ht.2.cons
        · trivial

theorem safe_pruneConflictingDeployments (y : Yanet) (nodeNames : List String) (tr : PassTrace) :
    Safe tracing (ReleaseCall y) (fun _ _ => True) (pruneConflictingDeployments y nodeNames).run tr := by
  unfold pruneConflictingDeployments
  refine Safe.tryBind (J := fun ds tr => Saw tr (listsDeployments y) (.ok ds)) ?_ fun ds tr h => ?_
  · refine Safe.bind (safe_listObjs (fun _ _ h => .read h)
      (fun ds => show onResult (fun ds tr => Saw tr (listsDeployments y) (.ok ds)) (fun _ _ => True) (.ok ds) _ from .head)
      fun _ => trivial) fun r tr hr => ?_
    cases r with
    | ok ds => exact hr
    | error e => trivial
  · exact (Safe.tryForM (fun d hd tr ht => safe_pruneConflictingDeployment nodeNames hd ht) h).post fun _ _ _ => trivial

/-! ## Pruning -/

/-- The labels of the objects of an installation. -/
abbrev yanetLabels (y : Yanet) : StrMap String := StrMap.of [(labelYanet, y.metadata.name)]

/-- The listing of the Pods of an installation. -/
abbrev listsPods (y : Yanet) : Op := .list .pod (some y.metadata.ns) (yanetLabels y)

/-- The calls of `pruneOrphans`. A ConfigMap is deleted when neither the Deployments nor the Pods that were read mount it, and no
rollout was pending. -/
inductive PruneCall (y : Yanet) (tr : PassTrace) : Op → Prop where
  | read {c : Op} (h : Op.isRead c = true) : PruneCall y tr c
  | deployment (ds : List Deployment) (d : Deployment) (armed : Armed tr) (saw : Saw tr (listsDeployments y) (.ok ds))
      (mem : d ∈ ds) (owned : controlledByYanet d.metadata y = true) : PruneCall y tr (.delete .deployment d true)
  | configMap (ds : List Deployment) (cms : List ConfigMap) (pods : List Pod) (cm : ConfigMap) (armed : Armed tr)
      (sawUse : SawThen tr (listsDeployments y) (.ok ds) (listsPods y) (.ok pods))
      (sawConfigMaps : Saw tr (.list .configMap (some y.metadata.ns) (yanetLabels y)) (.ok cms)) (mem : cm ∈ cms)
      (owned : controlledByYanet cm.metadata y = true) (settled : (deploymentUse y ds).pending = false)
      (unreferenced : cm.metadata.name ∉ (deploymentUse y ds).referenced)
      (unmounted : cm.metadata.name ∉ pods.flatMap fun p => podConfigMapRefs p.spec) :
      PruneCall y tr (.delete .configMap cm false)

theorem safe_pruneDeployment {y : Yanet} (desired : DesiredSet) (autoSync : Bool) {ds : List Deployment} {d : Deployment}
    (hd : d ∈ ds) (st : PruneState) {tr : PassTrace} (h : SawSince tr (listsDeployments y) (.ok ds)) :
    Safe tracing (PruneCall y) (onResult (fun _ tr => SawSince tr (listsDeployments y) (.ok ds)) fun _ _ => True)
      (pruneDeployment y desired autoSync st d).run tr := by
  have hread : Reads (PruneCall y) := fun _ _ h => .read h
  unfold pruneDeployment
  split
  · exact h
  · next hkeep =>
    rw [not_or] at hkeep
    split
    · exact h
    · split
      · exact h
      · refine Safe.bind (safe_checkGlobalStop hread (show onResult (fun _ tr => Armed tr ∧
          SawSince tr (listsDeployments y) (.ok ds)) (fun _ _ => True) (.ok ()) _ from ⟨.head, h.cons rfl⟩) trivial)
          fun r tr hr => ?_
        cases r with
        | error e => trivial
        | ok u =>
          refine safe_issue_bind (.deployment ds d hr.1 hr.2.saw hd (by simpa using hkeep.1)) fun r => ?_
          exact hr.2.cons rfl

/-- What `pruneOrphans` has read when it comes to the ConfigMaps. -/
structure PruneReads (y : Yanet) (ds : List Deployment) (cms : List ConfigMap) (pods : List Pod) (tr : PassTrace) : Prop where
  inUse : SawThen tr (listsDeployments y) (.ok ds) (listsPods y) (.ok pods)
  configMaps : Saw tr (.list .configMap (some y.metadata.ns) (yanetLabels y)) (.ok cms)

theorem PruneReads.cons {y : Yanet} {ds : List Deployment} {cms : List ConfigMap} {pods : List Pod} {tr : PassTrace}
    {e : Event Api} (h : PruneReads y ds cms pods tr) (he : Op.writesDeployment e.1 = false) :
    PruneReads y ds cms pods (e :: tr) :=
  ⟨h.inUse.cons he, h.configMaps.cons⟩

theorem safe_pruneConfigMap {y : Yanet} (desired : DesiredSet) (autoSync : Bool) {ds : List Deployment} {cms : List ConfigMap}
    {pods : List Pod} {cm : ConfigMap} (hcm : cm ∈ cms) {inUse : ConfigMapUse}
    (huse : inUse = { deploymentUse y ds with
      referenced := (deploymentUse y ds).referenced ++ pods.flatMap fun p => podConfigMapRefs p.spec })
    (st : PruneState) {tr : PassTrace} (h : PruneReads y ds cms pods tr) :
    Safe tracing (PruneCall y) (onResult (fun _ tr => PruneReads y ds cms pods tr) fun _ _ => True)
      (pruneConfigMap y desired autoSync inUse st cm).run tr := by
  have hread : Reads (PruneCall y) := fun _ _ h => .read h
  unfold pruneConfigMap
  split
  · exact h
  · next hkeep =>
    simp only [not_or] at hkeep
    obtain ⟨howned, -, hunused, hpending⟩ := hkeep
    have hrefs : cm.metadata.name ∉ (deploymentUse y ds).referenced ++ pods.flatMap fun p => podConfigMapRefs p.spec := by
      rw [huse] at hunused
      exact hunused
    rw [List.mem_append, not_or] at hrefs
    have hsettled : (deploymentUse y ds).pending = false := by
      rw [huse] at hpending
      simpa using hpending
    split
    · exact h
    · split
      · exact h
      · refine Safe.bind (safe_checkGlobalStop hread (show onResult (fun _ tr => Armed tr ∧ PruneReads y ds cms pods tr)
          (fun _ _ => True) (.ok ()) _ from ⟨.head, h.cons rfl⟩) trivial) fun r tr hr => ?_
        cases r with
        | error e => trivial
        | ok u =>
          refine safe_issue_bind (.configMap ds cms pods cm hr.1 hr.2.inUse hr.2.configMaps hcm
            (by simpa using howned) hsettled hrefs.1 hrefs.2) fun r => ?_
          exact hr.2.cons rfl

/-- A read of `pruneOrphans`: its answer is in the trace. -/
theorem safe_pruneRead {y : Yanet} {k : Kind} {ns : Option String} {labels : StrMap String} (st : PruneState)
    {J : List (Obj k) → PassTrace → Prop} {tr : PassTrace} (hJ : ∀ os, J os (⟨.list k ns labels, .ok os⟩ :: tr)) :
    Safe tracing (PruneCall y) (onResult J fun _ _ => True) (pruneRead st (listObjs k ns labels)).run tr := by
  refine Safe.bind (safe_listObjs (fun _ _ h => .read h) (fun os => show onResult J (fun _ _ => True) (.ok os) _ from hJ os)
    fun _ => trivial) fun r tr hr => ?_
  cases r with
  | ok os => exact hr
  | error e => trivial

theorem safe_pruneConfigMaps {y : Yanet} (desired : DesiredSet) (autoSync : Bool) (st : PruneState) {ds : List Deployment}
    {tr : PassTrace} (h : SawSince tr (listsDeployments y) (.ok ds)) :
    Safe tracing (PruneCall y) (fun _ _ => True) (pruneConfigMaps y desired autoSync st ds).run tr := by
  unfold pruneConfigMaps
  refine Safe.tryBind (J := fun cms tr => SawSince tr (listsDeployments y) (.ok ds) ∧
      Saw tr (.list .configMap (some y.metadata.ns) (yanetLabels y)) (.ok cms))
    (safe_pruneRead st fun cms => ⟨h.cons rfl, .head⟩) fun cms tr hc => ?_
  dsimp only
  split
  · trivial
  · refine Safe.tryBind (J := fun pods tr => PruneReads y ds cms pods tr)
      (safe_pruneRead st fun pods => ⟨.head hc.1 rfl, hc.2.cons⟩) fun pods tr hp => ?_
    exact (Safe.tryFoldlM (fun cm hcm st tr ht => safe_pruneConfigMap desired autoSync hcm rfl st ht) hp).post
      fun _ _ _ => trivial

theorem safe_pruneOrphans (y : Yanet) (desired : DesiredSet) (autoSync : Bool) (tr : PassTrace) :
    Safe tracing (PruneCall y) (fun _ _ => True) (pruneOrphans y desired autoSync) tr := by
  have hfrom : Safe tracing (PruneCall y) (fun _ _ => True) (pruneOrphansFrom y desired autoSync).run tr := by
    unfold pruneOrphansFrom
    refine Safe.tryBind (J := fun ds tr => SawSince tr (listsDeployments y) (.ok ds))
      (safe_pruneRead {} fun ds => .head) fun ds tr h => ?_
    refine Safe.tryBind (J := fun _ tr => SawSince tr (listsDeployments y) (.ok ds))
      (Safe.tryFoldlM (fun d hd st tr ht => safe_pruneDeployment desired autoSync hd st ht) h) fun st tr h => ?_
    dsimp only
    split
    · exact Safe.tryBind (J := fun ds tr => SawSince tr (listsDeployments y) (.ok ds)) (safe_pruneRead st fun ds => .head)
        fun ds tr h => safe_pruneConfigMaps desired autoSync st h
    · exact safe_pruneConfigMaps desired autoSync st h
  refine Safe.bind hfrom fun r tr _ => ?_
  cases r <;> trivial

end YanetOperator
