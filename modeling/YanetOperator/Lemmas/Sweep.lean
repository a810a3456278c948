import YanetOperator.Cluster.World
import YanetOperator.Lemmas.Ready
import YanetOperator.Lemmas.Tenancy

/-!
# A prune leaves nothing behind

What `pruneOrphans` does in applying mode on a server without failures: unless it reports an error, every object that it does not
keep is on its way out, and what it keeps is as it was.
-/

namespace YanetOperator

open Prog hiding pure

/-- Every object of a namespace that a prune does not keep is being deleted. -/
structure Swept (y : Yanet) (desired : DesiredSet) (store : Store) : Prop where
  deployments : ∀ d ∈ store.select .deployment (some y.metadata.ns) ∅,
    KeepsDeployment y desired d ∨ d.metadata.deletionTimestamp.isSome = true
  configMaps : ∀ c ∈ store.select .configMap (some y.metadata.ns) (yanetLabels y),
    KeepsConfigMap y desired (storedUse y store) c ∨ c.metadata.deletionTimestamp.isSome = true

/-- Nothing but objects of one kind has changed, of that kind none under a key that is spared, and none has come to another owner. -/
structure Spares (k : Kind) (spared : Key → Prop) (s t : Server) : Prop where
  config : t.config = s.config
  others : ∀ k', k' ≠ k → t.store k' = s.store k'
  found : ∀ key, spared key → t.store.find k key = s.store.find k key
  bearings : ∀ x ∈ t.store k, ∃ x₀ ∈ s.store k, SameBearings (metaOf k x₀) (metaOf k x)

theorem Spares.refl (k : Kind) (spared : Key → Prop) (s : Server) : Spares k spared s s :=
  ⟨rfl, fun _ _ => rfl, fun _ _ => rfl, fun x hx => ⟨x, hx, .refl _⟩⟩

theorem Spares.trans {k : Kind} {spared : Key → Prop} {s t u : Server} (h : Spares k spared s t) (h' : Spares k spared t u) :
    Spares k spared s u := by
  refine ⟨h'.config.trans h.config, fun k' hk => (h'.others k' hk).trans (h.others k' hk),
    fun key hkey => (h'.found key hkey).trans (h.found key hkey), fun x hx => ?_⟩
  obtain ⟨x', hx', hsame'⟩ := h'.bearings x hx
  obtain ⟨x₀, hx₀, hsame⟩ := h.bearings x' hx'
  exact ⟨x₀, hx₀, hsame.trans hsame'⟩

section

variable {N : Normalization} {s : Server} {k : Kind}

variable {y : Yanet} {desired : DesiredSet}

theorem pruneDeployment_fine {d : Deployment} (h : KeepsDeployment y desired d ∨ d.metadata.deletionTimestamp.isSome = true)
    (st : PruneState) : pruneDeployment y desired true st d = pure st := by
  rcases h with hkeeps | hdeleting
  · exact pruneDeployment_keeps true st hkeeps
  · unfold pruneDeployment
    by_cases hkeeps : controlledByYanet d.metadata y = false ∨ d.metadata.name ∈ desired.deployments
    · rw [if_pos hkeeps]
    · rw [if_neg hkeeps, if_neg (by decide), if_pos hdeleting]

theorem pruneConfigMap_fine {inUse : ConfigMapUse} {c : ConfigMap}
    (h : KeepsConfigMap y desired inUse c ∨ c.metadata.deletionTimestamp.isSome = true) (st : PruneState) :
    pruneConfigMap y desired true inUse st c = pure st := by
  rcases h with hkeeps | hdeleting
  · exact pruneConfigMap_keeps true st hkeeps
  · unfold pruneConfigMap
    by_cases hkeeps : controlledByYanet c.metadata y = false ∨ c.metadata.name ∈ desired.configMaps ∨
        c.metadata.name ∈ inUse.referenced ∨ inUse.pending = true
    · rw [if_pos hkeeps]
    · rw [if_neg hkeeps, if_neg (by decide), if_pos hdeleting]

end

end YanetOperator
