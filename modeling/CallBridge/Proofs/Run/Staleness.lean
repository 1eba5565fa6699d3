import CallBridge.Proofs.Generated.BridgeText
import CallBridge.Proofs.Generated.CallSurface
import CallBridge.Proofs.Run.Prediction

/-! # Stale bridges

The bridge on disk was written for the surface of an earlier run. A check calls it stale as soon as
the surface has other calls.
-/
namespace CallBridge

open Generated (Bridge)

theorem render_bridge {d : Disk} {config : Settings} {files : List Path} {t : Surface}
    {texts : Generated.Texts} (h : (d.render config files).result = .ok (t, texts)) :
    ∃ b, Bridge.ofSurface t config.runtime.bridge = .ok b ∧ texts.bridge = b.text := by
  change (d.analyze config files).result >>= (fun surface => do
    return (surface, ← Generated.texts surface config.resolvedOutputs config.runtime)) = _ at h
  simp only [bind_eq_ok_iff, pure_eq_ok_iff] at h
  obtain ⟨surface, -, written, hwritten, he⟩ := h
  cases he
  obtain ⟨backend, bridge, types, -, hbridge, -, rfl⟩ := Generated.texts_eq_ok_iff.mp hwritten
  exact ⟨bridge, hbridge, rfl⟩

theorem Output.check_stale {o : Output} {d : Disk} {text : String}
    (hread : d.tree.read [] o.path = .ok text.toUTF8) (hne : text ≠ o.text) :
    o.check d = ⟨o.name, o.path, .stale⟩ := by
  have hholds : d.holdsText o.path o.text = false := by
    rw [Bool.eq_false_iff]
    intro h
    obtain ⟨-, hheld⟩ := Disk.holdsText_iff.mp h
    rw [hread, Except.ok.injEq, String.toUTF8_eq_toByteArray, String.toUTF8_eq_toByteArray,
      String.toByteArray_inj] at hheld
    exact hne hheld
  rw [check, hholds]
  rfl

/-- The text of the bridge determines the calls. Of two surfaces whose methods and parameters have
names as programs have them, and with one runtime, the bridges have the same text exactly if the
surfaces have the same namespaces, in each of them the same method names, and for each method the
same kind and the same parameters, up to their types and an optional mark on a rest parameter. So a
check on a disk that holds the bridge of the one surface, for sources with the other surface,
reports that the bridge is stale. -/
theorem bridge_text_determines_calls {s t : Surface} (runtime : String)
    (hs : ∀ m ∈ s.methods, m.WellNamed) (ht : ∀ m ∈ t.methods, m.WellNamed) :
    ∃ b b', Bridge.ofSurface s runtime = .ok b ∧ Bridge.ofSurface t runtime = .ok b' ∧
      (b.text = b'.text ↔ s.SameCalls t) ∧
      ∀ (config : Settings) (d : Disk) (files : List Path) (texts : Generated.Texts),
        config.runtime.bridge = runtime → (d.render config files).result = .ok (t, texts) →
        d.tree.read [] config.resolvedOutputs.bridge = .ok b.text.toUTF8 → ¬ s.SameCalls t →
        ∃ summary, (d.run config .check files).report.result = .ok summary ∧
          ⟨"bridge", config.resolvedOutputs.bridge, .stale⟩ ∈ summary.outputs := by
  obtain ⟨b, hb, -⟩ := Bridge.exists_ofSurface s runtime
  obtain ⟨b', hb', -⟩ := Bridge.exists_ofSurface t runtime
  have htext := Bridge.text_eq_iff hs ht hb hb'
  refine ⟨b, b', hb, hb', htext, ?_⟩
  intro config d files texts hruntime hrender hread hother
  obtain ⟨rendered, hrendered, hbridge⟩ := render_bridge hrender
  rw [hruntime, hb', Except.ok.injEq] at hrendered
  subst hrendered
  have hstale := Output.check_stale (o := ⟨"bridge", config.resolvedOutputs.bridge, texts.bridge⟩)
    hread (hbridge ▸ mt htext.mp hother)
  refine ⟨_, by rw [check_of_render_ok hrender], ?_⟩
  rw [← hstale]
  simp [summaryOf, Settings.outputsWith]

/-- A surface with one method that has no parameters. -/
def barePing : Surface :=
  Surface.empty.insertEach [⟨"api", "ping", none, [], .value "void", ⟨"/work/a.ts"⟩, 2, .named, []⟩]

def barePingText : String :=
  Generated.header ++ "\n\nimport \x7b expose, invoke \x7d from '@bridgegen/runtime/bridge';\n\n" ++
    "expose('api', \x7b\n  ping: () => invoke('api:ping'),\n\x7d);\n"

/-- A project whose bridge was written for `barePing`. The method has got a parameter since. -/
def changedTree : FileTree where
  entries := [(["work"], .directory),
    (["work", "a.ts"], .file "// @expose\nexport function ping(host: T) \x7b\x7d\n".toUTF8),
    (["work", "preload.ts"], .file barePingText.toUTF8)]
  distinct := by decide +kernel
  named := by decide +kernel
  rooted := by decide +kernel

theorem changedTree_stale :
    (∀ m ∈ barePing.methods, m.WellNamed) ∧ ∃ t texts,
      (({ tree := changedTree } : Disk).render .flat [⟨"/work/a.ts"⟩]).result = .ok (t, texts) ∧
      (∀ m ∈ t.methods, m.WellNamed) ∧ ¬ barePing.SameCalls t ∧ ∃ summary,
        (({ tree := changedTree } : Disk).run .flat .check [⟨"/work/a.ts"⟩]).report.result =
          .ok summary ∧ ⟨"bridge", ⟨"/work/preload.ts"⟩, .stale⟩ ∈ summary.outputs := by
  have hbare : ∀ m ∈ barePing.methods, m.WellNamed := by decide +kernel
  have hrun : (({ tree := changedTree } : Disk).render .flat [⟨"/work/a.ts"⟩]).result.toOption.map
      (fun r => (decide (∀ m ∈ r.1.methods, m.WellNamed), Generated.shownBlocks r.1)) =
        some (true, [⟨"api", [⟨"ping", [⟨"host", false, false⟩], false, "api:ping"⟩]⟩]) := by
    decide +kernel
  obtain ⟨⟨t, texts⟩, hresult, hshown⟩ := Option.map_eq_some_iff.mp hrun
  have hrender := eq_ok_of_toOption hresult
  have hnamed : ∀ m ∈ t.methods, m.WellNamed := of_decide_eq_true (congrArg Prod.fst hshown)
  have hother : ¬ barePing.SameCalls t := by
    intro hsame
    have hblocks := (Generated.sameCalls_iff.mp hsame).trans (congrArg Prod.snd hshown)
    exact absurd hblocks (by decide +kernel)
  obtain ⟨b, -, hb, -, -, hstale⟩ :=
    bridge_text_determines_calls Settings.flat.runtime.bridge hbare hnamed
  have htext : (Bridge.ofSurface barePing Settings.flat.runtime.bridge).toOption.map Bridge.text =
      some barePingText := by
    decide +kernel
  have hpath : Settings.flat.resolvedOutputs.bridge = ⟨"/work/preload.ts"⟩ := by decide +kernel
  have hheld : (changedTree.read [] ⟨"/work/preload.ts"⟩).toOption = some barePingText.toUTF8 := by
    decide +kernel
  have hread : changedTree.read [] Settings.flat.resolvedOutputs.bridge = .ok b.text.toUTF8 := by
    rw [hb] at htext
    rw [hpath, Option.some.inj htext]
    exact eq_ok_of_toOption hheld
  obtain ⟨summary, hresult, hmem⟩ := hstale .flat _ _ texts rfl hrender hread hother
  rw [hpath] at hmem
  exact ⟨hbare, t, texts, hrender, hnamed, hother, summary, hresult, hmem⟩

end CallBridge
