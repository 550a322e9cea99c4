import Vane.Lib.Py

/-!
This module contains resource vectors. `a ≤ b` is `a.fits_within(b)` and `a - b` is
`_positive_difference(a, b)`.
-/

namespace Vane

-- With these instances a numeral is the same term in every module.
instance atLeastTwo_two : Nat.AtLeastTwo 2 := ⟨le_rfl⟩

instance atLeastTwo_three : Nat.AtLeastTwo 3 := ⟨by decide⟩

instance atLeastTwo_eight : Nat.AtLeastTwo 8 := ⟨by decide⟩

def epsilon : ℚ≥0 := 1 / 1000000000

@[ext]
structure ResourceVector where
  cpu : ℚ≥0 := 0
  gpu : ℚ≥0 := 0
  heapBytes : ℕ := 0
  objectStoreBytes : ℕ := 0
  deriving DecidableEq

inductive Dimension where
  | cpu
  | gpu
  | heapBytes
  | objectStoreBytes
  deriving DecidableEq

def Dimension.name : Dimension → String
  | cpu => "cpu"
  | gpu => "gpu"
  | heapBytes => "heap_bytes"
  | objectStoreBytes => "object_store_bytes"

def Dimension.all : List Dimension := [cpu, gpu, heapBytes, objectStoreBytes]

namespace ResourceVector

variable {a b c : ResourceVector}

instance : Zero ResourceVector where
  zero := {}

instance : Add ResourceVector where
  add a b := {
    cpu := a.cpu + b.cpu
    gpu := a.gpu + b.gpu
    heapBytes := a.heapBytes + b.heapBytes
    objectStoreBytes := a.objectStoreBytes + b.objectStoreBytes }

instance : Sub ResourceVector where
  sub a b := {
    cpu := a.cpu - b.cpu
    gpu := a.gpu - b.gpu
    heapBytes := a.heapBytes - b.heapBytes
    objectStoreBytes := a.objectStoreBytes - b.objectStoreBytes }

instance : LE ResourceVector where
  le a b := a.cpu ≤ b.cpu ∧ a.gpu ≤ b.gpu ∧ a.heapBytes ≤ b.heapBytes ∧
    a.objectStoreBytes ≤ b.objectStoreBytes

instance (a b : ResourceVector) : Decidable (a ≤ b) := inferInstanceAs (Decidable (_ ∧ _ ∧ _ ∧ _))

theorem le_def : a ≤ b ↔ a.cpu ≤ b.cpu ∧ a.gpu ≤ b.gpu ∧ a.heapBytes ≤ b.heapBytes ∧
    a.objectStoreBytes ≤ b.objectStoreBytes := Iff.rfl

@[simp] theorem cpu_zero : (0 : ResourceVector).cpu = 0 := rfl
@[simp] theorem gpu_zero : (0 : ResourceVector).gpu = 0 := rfl
@[simp] theorem heapBytes_zero : (0 : ResourceVector).heapBytes = 0 := rfl
@[simp] theorem objectStoreBytes_zero : (0 : ResourceVector).objectStoreBytes = 0 := rfl
@[simp] theorem cpu_add : (a + b).cpu = a.cpu + b.cpu := rfl
@[simp] theorem gpu_add : (a + b).gpu = a.gpu + b.gpu := rfl
@[simp] theorem heapBytes_add : (a + b).heapBytes = a.heapBytes + b.heapBytes := rfl
@[simp] theorem objectStoreBytes_add :
    (a + b).objectStoreBytes = a.objectStoreBytes + b.objectStoreBytes := rfl
@[simp] theorem cpu_sub : (a - b).cpu = a.cpu - b.cpu := rfl
@[simp] theorem gpu_sub : (a - b).gpu = a.gpu - b.gpu := rfl
@[simp] theorem heapBytes_sub : (a - b).heapBytes = a.heapBytes - b.heapBytes := rfl
@[simp] theorem objectStoreBytes_sub :
    (a - b).objectStoreBytes = a.objectStoreBytes - b.objectStoreBytes := rfl

def components (a : ResourceVector) : ℚ≥0 × ℚ≥0 × ℕ × ℕ :=
  (a.cpu, a.gpu, a.heapBytes, a.objectStoreBytes)

theorem components_injective : Function.Injective components := by
  intro a b h
  simp only [components, Prod.mk.injEq] at h
  exact ResourceVector.ext h.1 h.2.1 h.2.2.1 h.2.2.2

theorem components_le : a.components ≤ b.components ↔ a ≤ b := Iff.rfl

instance : PartialOrder ResourceVector where
  le_refl a := le_refl a.components
  le_trans a b c hab hbc := components_le.mp (le_trans (components_le.mpr hab) hbc)
  le_antisymm a b hab hba := components_injective (le_antisymm hab hba)

instance : AddCommMonoid ResourceVector where
  add_assoc a b c := components_injective (add_assoc a.components b.components c.components)
  zero_add a := components_injective (zero_add a.components)
  add_zero a := components_injective (add_zero a.components)
  add_comm a b := components_injective (add_comm a.components b.components)
  nsmul := nsmulRec

instance : IsOrderedCancelAddMonoid ResourceVector where
  add_le_add_left _ _ h c := add_le_add_left (components_le.mpr h) c.components
  le_of_add_le_add_left a _ _ h :=
    components_le.mp (le_of_add_le_add_left (show a.components + _ ≤ a.components + _ from h))

instance : CanonicallyOrderedAdd ResourceVector where
  exists_add_of_le {a b} h := by
    obtain ⟨c, hc⟩ := exists_add_of_le (components_le.mpr h)
    exact ⟨⟨c.1, c.2.1, c.2.2.1, c.2.2.2⟩, components_injective hc⟩
  le_self_add a b := components_le.mp (le_self_add (a := a.components) (b := b.components))
  le_add_self a b := components_le.mp (le_add_self (a := a.components) (b := b.components))

instance : OrderedSub ResourceVector where
  tsub_le_iff_right a b c :=
    tsub_le_iff_right (a := a.components) (b := b.components) (c := c.components)

def get (d : Dimension) (a : ResourceVector) : ℚ≥0 :=
  match d with
  | .cpu => a.cpu
  | .gpu => a.gpu
  | .heapBytes => a.heapBytes
  | .objectStoreBytes => a.objectStoreBytes

def replace (a : ResourceVector) (d : Dimension) (value : ℚ≥0) : ResourceVector :=
  match d with
  | .cpu => { a with cpu := value }
  | .gpu => { a with gpu := value }
  | .heapBytes => { a with heapBytes := ⌊value⌋₊ }
  | .objectStoreBytes => { a with objectStoreBytes := ⌊value⌋₊ }

def exceededDimensions (a capacity : ResourceVector) : List Dimension :=
  Dimension.all.filter fun d => capacity.get d < a.get d

def scale (a : ResourceVector) (factor : ℚ≥0) : ResourceVector where
  cpu := a.cpu * factor
  gpu := a.gpu * factor
  heapBytes := ⌊a.heapBytes * factor⌋₊
  objectStoreBytes := ⌊a.objectStoreBytes * factor⌋₊

def share (demand available : ℚ≥0) : WithTop ℚ≥0 :=
  if demand = 0 then 0 else if available = 0 then ⊤ else ((demand / available : ℚ≥0) : WithTop ℚ≥0)

def dominantShare (a capacity : ResourceVector) : WithTop ℚ≥0 :=
  (Dimension.all.map fun d => share (a.get d) (capacity.get d)).foldl max 0

@[simp]
theorem get_zero (d : Dimension) : (0 : ResourceVector).get d = 0 := by
  cases d <;> simp [get]

@[simp]
theorem get_add (d : Dimension) (a b : ResourceVector) : (a + b).get d = a.get d + b.get d := by
  cases d <;> simp [get]

theorem le_iff_get_le : a ≤ b ↔ ∀ d, a.get d ≤ b.get d := by
  constructor
  . intro h d
    obtain ⟨hcpu, hgpu, hheap, hstore⟩ := h
    cases d with
    | cpu => exact hcpu
    | gpu => exact hgpu
    | heapBytes => exact Nat.cast_le.mpr hheap
    | objectStoreBytes => exact Nat.cast_le.mpr hstore
  . intro h
    exact ⟨h .cpu, h .gpu, Nat.cast_le.mp (h .heapBytes), Nat.cast_le.mp (h .objectStoreBytes)⟩

theorem exceededDimensions_eq_nil_iff : a.exceededDimensions b = [] ↔ a ≤ b := by
  unfold exceededDimensions
  rw [List.filter_eq_nil_iff, le_iff_get_le]
  constructor
  . intro h d
    have hd : d ∈ Dimension.all := by cases d <;> simp [Dimension.all]
    simpa using h d hd
  . intro h d _
    simpa using h d

theorem eq_of_get_eq (h : ∀ d, a.get d = b.get d) : a = b :=
  le_antisymm (le_iff_get_le.mpr fun d => (h d).le) (le_iff_get_le.mpr fun d => (h d).ge)

theorem get_sum (d : Dimension) (l : List ResourceVector) :
    l.sum.get d = (l.map (·.get d)).sum := by
  induction l with
  | nil => simp
  | cons a l ih => simp [ih]

@[simp]
theorem scale_zero (a : ResourceVector) : a.scale 0 = 0 := by
  ext <;> simp [scale]

theorem scale_le {factor : ℚ≥0} (h : factor ≤ 1) (a : ResourceVector) : a.scale factor ≤ a := by
  refine ⟨mul_le_of_le_one_right' h, mul_le_of_le_one_right' h, ?_, ?_⟩
  all_goals
    apply Nat.floor_le_of_le
    exact mul_le_of_le_one_right' h

end ResourceVector

end Vane
