import YanetOperator.Lemmas.Identity

/-!
# Native sidecars after a patch

What `restoreNativeSidecars` makes of the init containers of a patched Pod: the captured containers, each once and in order, and
every other container where it stood.
-/

namespace YanetOperator

/-- A captured container after the patches: what is left of it in the Pod, its last occurrence, with the captured restart
policy. -/
def restoredSidecar (inits : List Container) (baseline : Container) : Container :=
  { (inits.reverse.find? (·.name == baseline.name)).getD baseline with restartPolicy := baseline.restartPolicy }

/-- A name of a captured container. -/
def isCaptured (expected : List Container) (name : String) : Bool := decide (name ∈ expected.map (·.name))

/-- The containers of a list that were captured. -/
def capturedOf (expected cs : List Container) : List Container := cs.filter fun c => isCaptured expected c.name

/-- The containers of a list that were not captured. -/
def foreignOf (expected cs : List Container) : List Container := cs.filter fun c => !isCaptured expected c.name

theorem restoredSidecar_shape (inits : List Container) (baseline : Container) :
    (restoredSidecar inits baseline).shape = baseline.shape := by
  unfold restoredSidecar Container.shape
  cases hf : inits.reverse.find? (·.name == baseline.name) with
  | none => rfl
  | some c =>
    have hname : c.name = baseline.name := by simpa using List.find?_some hf
    simp [hname]

theorem restoredSidecar_name (inits : List Container) (baseline : Container) :
    (restoredSidecar inits baseline).name = baseline.name := congrArg Prod.fst (restoredSidecar_shape inits baseline)

/-! ## The loop -/

/-- Containers that are not managed stay. -/
theorem filter_not_placeNativeSidecars {managed : String → Bool} {expected cs : List Container}
    (h : ∀ c ∈ expected, managed c.name = true) :
    (placeNativeSidecars managed expected cs).filter (fun c => !managed c.name) = cs.filter fun c => !managed c.name := by
  induction cs generalizing expected with
  | nil => rfl
  | cons c cs ih =>
    have hnone (es : List Container) (hes : ∀ e ∈ es, managed e.name = true) : es.filter (fun c => !managed c.name) = [] := by
      rw [List.filter_eq_nil_iff]
      intro e he
      simp [hes e he]
    by_cases hc : managed c.name = true
    · rw [placeNativeSidecars, if_pos hc, List.filter_cons_of_neg (by simp [hc])]
      split
      · rw [List.filter_append, hnone _ fun e he => h e (List.mem_of_mem_take he), List.nil_append]
        exact ih fun e he => h e (List.mem_of_mem_drop he)
      · rw [List.filter_append, hnone _ h, List.nil_append]
        exact ih (by simp)
    · rw [placeNativeSidecars, if_neg hc, List.filter_cons_of_pos (by simpa using hc), List.filter_cons_of_pos (by simpa using hc),
        ih h]

/-- A list whose managed containers are already the expected ones is left as it is. -/
theorem placeNativeSidecars_filter (managed : String → Bool) (cs : List Container) :
    placeNativeSidecars managed (cs.filter (managed ·.name)) cs = cs := by
  induction cs with
  | nil => rfl
  | cons c cs ih =>
    by_cases hc : managed c.name = true
    · rw [List.filter_cons_of_pos (p := fun x : Container => managed x.name) hc, placeNativeSidecars, if_pos hc]
      split
      · rw [List.take_succ_cons, List.take_zero, List.drop_succ_cons, List.drop_zero, ih]
        rfl
      · next hlast =>
        -- no managed container follows, so the expected ones end here
        have hnil : cs.filter (managed ·.name) = [] := by
          rw [List.filter_eq_nil_iff]
          intro x hx hm
          exact hlast (List.any_eq_true.2 ⟨x, hx, hm⟩)
        rw [hnil] at ih ⊢
        rw [ih]
        rfl
    · rw [List.filter_cons_of_neg (p := fun x : Container => managed x.name) hc, placeNativeSidecars, if_neg hc, ih]

/-! ## The restoration -/

section

variable (inits expected : List Container)

theorem restoreNativeSidecars_eq : restoreNativeSidecars inits expected =
    if inits.any (fun c => isCaptured expected c.name) then
      placeNativeSidecars (isCaptured expected) (expected.map (restoredSidecar inits)) inits
    else expected.map (restoredSidecar inits) ++ inits := rfl

theorem isCaptured_restored : ∀ c ∈ expected.map (restoredSidecar inits), isCaptured expected c.name = true := by
  intro c hc
  obtain ⟨b, hb, rfl⟩ := List.mem_map.1 hc
  rw [restoredSidecar_name]
  exact decide_eq_true (List.mem_map_of_mem hb)

theorem capturedOf_restore :
    capturedOf expected (restoreNativeSidecars inits expected) = expected.map (restoredSidecar inits) := by
  have hall : (expected.map (restoredSidecar inits)).filter (fun c => isCaptured expected c.name) =
      expected.map (restoredSidecar inits) := List.filter_eq_self.2 (isCaptured_restored inits expected)
  rw [restoreNativeSidecars_eq, capturedOf]
  split
  · next hany => rw [filter_placeNativeSidecars (fun _ _ hc => hc) hany, hall]
  · next hnone =>
    have hnil : inits.filter (fun c => isCaptured expected c.name) = [] := by
      rw [List.filter_eq_nil_iff]
      intro c hc hm
      exact hnone (List.any_eq_true.2 ⟨c, hc, hm⟩)
    rw [List.filter_append, hall, hnil, List.append_nil]

theorem foreignOf_restore : foreignOf expected (restoreNativeSidecars inits expected) = foreignOf expected inits := by
  rw [restoreNativeSidecars_eq, foreignOf, foreignOf]
  split
  · exact filter_not_placeNativeSidecars (isCaptured_restored inits expected)
  · have hnil : (expected.map (restoredSidecar inits)).filter (fun c => !isCaptured expected c.name) = [] := by
      rw [List.filter_eq_nil_iff]
      intro c hc
      simp [isCaptured_restored inits expected c hc]
    rw [List.filter_append, hnil, List.nil_append]

variable {inits expected}

/-- Of containers with distinct names one has the name of a given one. -/
theorem filter_name_eq {cs : List Container} (hnames : (cs.map (·.name)).Nodup) {b : Container} (hb : b ∈ cs) :
    cs.filter (·.name == b.name) = [b] := by
  induction cs with
  | nil => cases hb
  | cons x xs ih =>
    rw [List.map_cons, List.nodup_cons] at hnames
    rcases List.mem_cons.1 hb with rfl | hb
    · rw [List.filter_cons_of_pos (by simp), List.cons_inj_right, List.filter_eq_nil_iff]
      intro c hc heq
      have heq : c.name = b.name := by simpa using heq
      exact hnames.1 (heq ▸ List.mem_map_of_mem hc)
    · have hne : x.name ≠ b.name := fun heq => hnames.1 (heq ▸ List.mem_map_of_mem hb)
      rw [List.filter_cons_of_neg (by simpa using hne)]
      exact ih hnames.2 hb

/-- Each captured name occurs once. -/
theorem filter_name_restore (hnames : (expected.map (·.name)).Nodup) {b : Container} (hb : b ∈ expected) :
    (restoreNativeSidecars inits expected).filter (·.name == b.name) = [restoredSidecar inits b] := by
  have hsub : (restoreNativeSidecars inits expected).filter (·.name == b.name) =
      (capturedOf expected (restoreNativeSidecars inits expected)).filter (·.name == b.name) := by
    rw [capturedOf, List.filter_filter]
    refine List.filter_congr fun c _ => ?_
    by_cases hc : c.name = b.name
    · have hb' : isCaptured expected b.name = true := decide_eq_true (List.mem_map_of_mem hb)
      simp [hc, hb']
    · simp [hc]
  have hcomp : (fun c : Container => c.name == b.name) ∘ restoredSidecar inits = fun c => c.name == b.name := by
    funext c
    simp [restoredSidecar_name]
  rw [hsub, capturedOf_restore, List.filter_map, hcomp, filter_name_eq hnames hb]
  rfl

/-- A captured container is found in the restored list as it was restored. -/
theorem restoredSidecar_restore (hnames : (expected.map (·.name)).Nodup) {b : Container} (hb : b ∈ expected) :
    restoredSidecar (restoreNativeSidecars inits expected) b = restoredSidecar inits b := by
  have hfind : (restoreNativeSidecars inits expected).reverse.find? (·.name == b.name) = some (restoredSidecar inits b) := by
    rw [← List.head?_filter, List.filter_reverse, filter_name_restore hnames hb]
    rfl
  rw [restoredSidecar, hfind]
  rfl

end

/-- The restored init containers: each captured container once, in the captured order, with its captured name and restart policy and
the other fields of its last occurrence in the patched list, or its captured ones when it is gone; every other container as it was
and in its order; and a second restoration changes nothing. -/
theorem nativeSidecars_restored (inits expected : List Container) (hnames : (expected.map (·.name)).Nodup) :
    capturedOf expected (restoreNativeSidecars inits expected) = expected.map (restoredSidecar inits) ∧
      (capturedOf expected (restoreNativeSidecars inits expected)).map Container.shape = expected.map Container.shape ∧
      (∀ b ∈ expected, (restoreNativeSidecars inits expected).filter (·.name == b.name) = [restoredSidecar inits b]) ∧
      foreignOf expected (restoreNativeSidecars inits expected) = foreignOf expected inits ∧
      restoreNativeSidecars (restoreNativeSidecars inits expected) expected = restoreNativeSidecars inits expected := by
  refine ⟨capturedOf_restore inits expected, ?_, fun b hb => filter_name_restore hnames hb, foreignOf_restore inits expected, ?_⟩
  · rw [capturedOf_restore, List.map_map]
    exact List.map_congr_left fun b _ => restoredSidecar_shape inits b
  · have hsame : expected.map (restoredSidecar (restoreNativeSidecars inits expected)) = expected.map (restoredSidecar inits) :=
      List.map_congr_left fun b hb => restoredSidecar_restore hnames hb
    conv_lhs => rw [restoreNativeSidecars_eq]
    rw [hsame, ← capturedOf_restore inits expected]
    split
    · exact placeNativeSidecars_filter _ _
    · next hnone =>
      have hnil : capturedOf expected (restoreNativeSidecars inits expected) = [] := by
        rw [capturedOf, List.filter_eq_nil_iff]
        intro c hc hm
        exact hnone (List.any_eq_true.2 ⟨c, hc, hm⟩)
      rw [hnil, List.nil_append]

/-- Two captured sidecars, of which a patch kept the second twice and moved it before a container of its own. -/
theorem swappedSidecars_restored :
    let log : Container := { name := "op-0a1b2c3d-log", image := "log:1", restartPolicy := some restartAlways }
    let agent : Container := { name := "op-4e5f6a7b-agent", image := "agent:1", restartPolicy := some restartAlways }
    let wait : Container := { name := "wait", image := "busybox" }
    let inits := [{ agent with image := "agent:2", restartPolicy := none }, wait, { agent with image := "agent:3" }]
    restoreNativeSidecars inits [log, agent] = [log, wait, { agent with image := "agent:3" }] ∧
      restoreNativeSidecars (restoreNativeSidecars inits [log, agent]) [log, agent] = restoreNativeSidecars inits [log, agent] :=
  ⟨by decide +kernel, (nativeSidecars_restored _ _ (by decide)).2.2.2.2⟩

end YanetOperator
