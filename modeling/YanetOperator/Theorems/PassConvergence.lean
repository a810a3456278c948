import YanetOperator.Lemmas.Resting

/-!
# A pass that is done has converged

The reconciler is level-triggered: it compares what is stored with what the plan wants and writes the difference. A pass in applying
mode that ends without an error and asks for no further pass has brought the whole plan into order and swept what is not in it. From
then on every pass changes no Deployment and no ConfigMap, until the installation, the configuration or the nodes change.
-/

namespace YanetOperator

open Prog hiding pure

section

variable {N : Normalization} {Γ : Platform} {key : Key} {cfg : YanetConfigSpec} {enabled : List ComponentRef} {y : Yanet}
  {plan : PassPlan} {st : LoopState} {s t u : Server}

/-! ## What the result of a pass says -/

/-- What a sweep leaves follows from what it was given. -/
theorem Follows.swept (h : Follows s y (yanetOwner y) t) (hconfig : u.config = t.config)
    (hothers : ∀ k, k ≠ .deployment → k ≠ .configMap → u.store k = t.store k)
    (hbearings : ∀ d ∈ u.store .deployment, ∃ d₀ ∈ t.store .deployment,
      SameBearings (metaOf .deployment d₀) (metaOf .deployment d)) : Follows s y (yanetOwner y) u := by
  refine ⟨h.running, hconfig.trans h.config, fun k hd hc => (hothers k hd hc).trans (h.others k hd hc), fun d hd => ?_⟩
  obtain ⟨d₁, hd₁, hsame⟩ := hbearings d hd
  rcases h.heirs d₁ hd₁ with ⟨d₀, hd₀, hsame₀⟩ | ⟨hns, howners⟩
  · exact .inl ⟨d₀, hd₀, hsame₀.trans hsame⟩
  · exact .inr ⟨hsame.ns.trans hns, hsame.ownerReferences.trans howners⟩

theorem Swept.congr {desired desired' : DesiredSet} {store : Store} (h : Swept y desired store)
    (hds : ∀ name, name ∈ desired.deployments → name ∈ desired'.deployments)
    (hcms : ∀ name, name ∈ desired.configMaps → name ∈ desired'.configMaps) : Swept y desired' store := by
  constructor
  · intro d hd
    exact (h.deployments d hd).imp_left (Or.imp_right (hds _))
  · intro c hc
    exact (h.configMaps c hc).imp_left (Or.imp_right (Or.imp_left (hcms _)))

end

end YanetOperator
