/-
# MediaSniff.Proofs.Descriptor.Validity — rules that are right in themselves

Whether a rule is right can be asked of the rule alone, before it is known what else the
document says: whether it compiles, for whichever type. A filename rule needs a weight in
its range and a pattern that can be read (`GlobRule.compiles_iff`), a content rule a
priority in its range and tests that compile (`MagicRule.compiles_iff`), a directory rule
the same (`LayoutRule.compiles_iff`); a root element needs a name without white space.

A document is right rule by rule (`RulesValid`) if all its rules are, as they are written,
and every name that it refers to resolves. It is sound (`Sound`) if moreover no root element
is registered twice, no type stands above itself and the sentinels are there.
-/
import MediaSniff.Proofs.Descriptor.Registry
import MediaSniff.Proofs.Glob.Width
import MediaSniff.Proofs.Layout.Compile
import MediaSniff.Proofs.Magic.Chain

set_option autoImplicit false

namespace MediaSniff

/-! ## Compiling one rule -/

namespace Glob

/-- The text of a pattern can be read. -/
def Readable (pattern : String) (caseSensitive : Bool) : Prop :=
  pattern.isEmpty = false ∧
    ∃ shape, shapeOf (if caseSensitive then pattern else Text.lowercase pattern) = .ok shape

theorem exists_compile_iff {pattern : String} {caseSensitive : Bool} {weight : Nat}
    {owner : TypeId} :
    (∃ g, compile pattern caseSensitive weight owner = .ok g) ↔
      (1 ≤ weight ∧ weight ≤ 100) ∧ Readable pattern caseSensitive := by
  simp only [compile_eq_ok, Readable]
  constructor
  · rintro ⟨g, inside, written, shape, read, -⟩
    exact ⟨inside, written, shape, read⟩
  · rintro ⟨inside, written, shape, read⟩
    exact ⟨_, inside, written, shape, read, rfl⟩

end Glob

namespace Magic.Signature

theorem exists_compile_iff {owner : TypeId} {priority : Option Nat}
    {tests : List Descriptor.MatchRule} :
    (∃ s, compile owner priority tests = .ok s) ↔
      priority.getD defaultPriority ≤ greatestPriority ∧
        ∃ trees, compileForest tests = .ok trees := by
  simp only [compile_eq_ok]
  constructor
  · rintro ⟨s, allowed, trees, compiled, -⟩
    exact ⟨allowed, trees, compiled⟩
  · rintro ⟨allowed, trees, compiled⟩
    exact ⟨_, allowed, trees, compiled, rfl⟩

end Magic.Signature

namespace Descriptor

/-- A filename rule compiles under the weight that it declares itself. -/
def GlobRule.Compiles (rule : GlobRule) : Prop :=
  ∀ owner, ∃ g, Glob.compile rule.pattern rule.caseSensitive rule.effectiveWeight owner = .ok g

/-- A content rule compiles. -/
def MagicRule.Compiles (rule : MagicRule) : Prop :=
  ∀ owner, ∃ s, Magic.Signature.compile owner rule.priority rule.tests = .ok s

/-- A directory rule compiles wherever the types that it mentions are known. -/
def LayoutRule.Compiles (rule : LayoutRule) : Prop :=
  ∀ type owner (resolve : String → Option TypeId),
    (∀ name ∈ rule.references, (resolve name).isSome) →
      ∃ s, Layout.Signature.compile type owner rule resolve = .ok s

/-- A root element has a name, and there is no white space in it. -/
def RootElement.Valid (root : RootElement) : Prop :=
  (root.namespaceUri ≠ "" ∨ root.localName ≠ "") ∧
    ∀ c ∈ root.namespaceUri.toList ++ root.localName.toList, Text.isBlank c = false

theorem GlobRule.compiles_iff {rule : GlobRule} :
    rule.Compiles ↔ (1 ≤ rule.effectiveWeight ∧ rule.effectiveWeight ≤ 100) ∧
      Glob.Readable rule.pattern rule.caseSensitive := by
  simp only [Compiles, Glob.exists_compile_iff, forall_const]

theorem MagicRule.compiles_iff {rule : MagicRule} :
    rule.Compiles ↔ rule.priority.getD Magic.defaultPriority ≤ Magic.greatestPriority ∧
      ∃ trees, Magic.compileForest rule.tests = .ok trees := by
  simp only [Compiles, Magic.Signature.exists_compile_iff, forall_const]

theorem LayoutRule.compiles_iff {rule : LayoutRule} :
    rule.Compiles ↔ rule.priority.getD Magic.defaultPriority ≤ Magic.greatestPriority ∧
      ∀ test ∈ rule.allTests, Layout.WellWritten test := by
  simp only [Compiles, Layout.Signature.exists_compile_iff]
  constructor
  · intro compiles
    exact (compiles "" ⟨0⟩ (fun _ => some ⟨0⟩) fun _ _ => rfl).1
  · intro right type owner resolve known
    exact ⟨right, known⟩

instance (pattern : String) (caseSensitive : Bool) :
    Decidable (Glob.Readable pattern caseSensitive) := instDecidableAnd

instance (test : LayoutTest) : Decidable (Layout.WellWritten test) := instDecidableAnd

instance (rule : GlobRule) : Decidable rule.Compiles :=
  decidable_of_iff _ GlobRule.compiles_iff.symm

instance (rule : MagicRule) : Decidable rule.Compiles :=
  decidable_of_iff _ MagicRule.compiles_iff.symm

instance (rule : LayoutRule) : Decidable rule.Compiles :=
  decidable_of_iff _ LayoutRule.compiles_iff.symm

instance (root : RootElement) : Decidable root.Valid :=
  decidable_of_iff ((root.namespaceUri ≠ "" ∨ root.localName ≠ "") ∧
      (root.namespaceUri.toList ++ root.localName.toList).any Text.isBlank = false)
    (and_congr_right fun _ => by simp only [List.any_eq_false, Bool.not_eq_true])

/-! ## Documents -/

/-- Every rule of a document is right in itself, as it is written, and every name that the
document refers to resolves. -/
structure RulesValid (d : Descriptor) : Prop where
  names : ∀ e ∈ d.entries, isMediaType e.name = true
  globs : ∀ w ∈ d.written (·.globs), w.2.Compiles
  magic : ∀ w ∈ d.written (·.magic), w.2.Compiles
  layouts : ∀ w ∈ d.written (·.layouts), w.2.Compiles
  rootElements : ∀ w ∈ d.written (·.rootElements), w.2.Valid
  superclasses : ∀ w ∈ d.written (·.subClassOf), (d.resolve? w.2).isSome
  mimetypes : ∀ w ∈ d.written (·.layouts), ∀ name ∈ w.2.references, (d.resolve? name).isSome

instance (d : Descriptor) : Decidable d.RulesValid :=
  decidable_of_iff
    ((∀ e ∈ d.entries, isMediaType e.name = true) ∧
      (∀ w ∈ d.written (·.globs), w.2.Compiles) ∧ (∀ w ∈ d.written (·.magic), w.2.Compiles) ∧
      (∀ w ∈ d.written (·.layouts), w.2.Compiles) ∧
      (∀ w ∈ d.written (·.rootElements), w.2.Valid) ∧
      (∀ w ∈ d.written (·.subClassOf), (d.resolve? w.2).isSome) ∧
      ∀ w ∈ d.written (·.layouts), ∀ name ∈ w.2.references, (d.resolve? name).isSome)
    ⟨fun ⟨names, globs, magic, layouts, roots, superclasses, mimetypes⟩ =>
      ⟨names, globs, magic, layouts, roots, superclasses, mimetypes⟩,
    fun ⟨names, globs, magic, layouts, roots, superclasses, mimetypes⟩ =>
      ⟨names, globs, magic, layouts, roots, superclasses, mimetypes⟩⟩

/-- A document whose rules are valid, and valid together. -/
structure Sound (d : Descriptor) : Prop extends RulesValid d where
  once : ((d.written (·.rootElements)).map (·.2)).Nodup
  acyclic : d.Acyclic
  sentinels : ∀ name ∈ sentinelNames, name ∈ d.typeNames

end Descriptor

end MediaSniff
