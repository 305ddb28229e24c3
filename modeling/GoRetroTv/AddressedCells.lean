import Mathlib.Data.BitVec
import Mathlib.Data.List.OfFn

/-!
# Cells under a bit-vector address

An array whose length is a power of two is a function of an address that wide;
masking an offset to the array is truncating it.  `cells` lists the array in
address order and `ofCells` fills one from a list.
-/

namespace GoRetroTv

variable {width : Nat} {α : Type}

/-- The cells in address order.  A large array is never computed cell by cell. -/
@[irreducible]
def cells (array : BitVec width → α) : List α :=
  List.ofFn fun i : Fin (2 ^ width) => array (BitVec.ofFin i)

/-- The array a list fills. -/
def ofCells (absent : α) (list : List α) : BitVec width → α :=
  fun address => list.getD address.toNat absent

@[simp]
theorem cells_length (array : BitVec width → α) : (cells array).length = 2 ^ width := by
  rw [cells, List.length_ofFn]

@[simp]
theorem ofCells_cells (absent : α) (array : BitVec width → α) :
    ofCells absent (cells array) = array := by
  ext1 address
  unfold ofCells cells
  rw [List.getD_eq_getElem?_getD, List.getElem?_ofFn, dif_pos address.isLt]
  rfl

theorem cells_head {absent : α} (array : BitVec width → α) :
    (cells array).headD absent = array 0 := by
  have positive : 0 < 2 ^ width := Nat.two_pow_pos width
  rw [List.headD_eq_head?_getD, List.head?_eq_getElem?, cells, List.getElem?_ofFn,
    dif_pos positive]
  rfl

end GoRetroTv
