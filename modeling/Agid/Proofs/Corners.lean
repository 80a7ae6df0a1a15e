import Agid.Proofs.Codec

/-!
# The corners of a cell on the two cores

The native exports clamp a coordinate to `M`, the TypeScript core does not.  A corner's coordinate
is the cell's or one more, so the two differ on the last row and on the last column of a face, and
only there: there the native corners one step out fall back onto the cell's own.
-/

namespace Agid

theorem minU32_toNat {x : ℕ} (hx : x ≤ K) :
    (Native.minU32 (toI32 x) Native.M).toNat = min x (K - 1) := by
  have h1 : (BitVec.ofNat 32 x).toNat = x := by
    rw [BitVec.toNat_ofNat, Nat.mod_eq_of_lt]
    rw [K_eq] at hx
    omega
  have h2 : Native.M.toNat = 2 ^ 21 - 1 := rfl
  rw [K_eq] at hx ⊢
  rw [Native.minU32, toI32, BitVec.ofInt_natCast]
  split_ifs with h <;> rw [BitVec.lt_def, h1, h2] at h
  · rw [h2]
    omega
  · rw [h1]
    omega

section Cores

variable (project : ℤ → ℚ → ℚ → LatLon)

theorem getFromQuantized_native {face : ℕ} (hf : face < 6) {x y : ℕ} (hx : x ≤ K) (hy : y ≤ K) :
    getFromQuantized (some (agidCore project)) project face x y
      = project face (min x (K - 1) : ℕ) (min y (K - 1) : ℕ) := by
  have hface : (toI32 face).toNat = face := by
    rw [toI32, BitVec.ofInt_natCast, BitVec.toNat_ofNat, Nat.mod_eq_of_lt (by omega)]
  simp only [getFromQuantized, agidCore, Native.agidGetLat, Native.agidGetLon,
    Native.getFromQuantized, Rat.num_natCast, minU32_toNat hx, minU32_toNat hy, hface]
  simp [Rat.isInt]

theorem getCellCorners_native (c : Cell) :
    getCellCorners (some (agidCore project)) project c.face c.qx c.qy 1
      = [project c.face c.qx c.qy,
        project c.face (min (c.qx + 1) (K - 1) : ℕ) c.qy,
        project c.face (min (c.qx + 1) (K - 1) : ℕ) (min (c.qy + 1) (K - 1) : ℕ),
        project c.face c.qx (min (c.qy + 1) (K - 1) : ℕ)] := by
  have hx := c.qx_lt
  have hy := c.qy_lt
  have hx' : min c.qx (K - 1) = c.qx := by omega
  have hy' : min c.qy (K - 1) = c.qy := by omega
  have ex : (c.qx : ℚ) + 1 = (c.qx + 1 : ℕ) := by push_cast; rfl
  have ey : (c.qy : ℚ) + 1 = (c.qy + 1 : ℕ) := by push_cast; rfl
  simp only [getCellCorners, ex, ey,
    getFromQuantized_native project c.face_lt (show c.qx ≤ K by omega) (show c.qy ≤ K by omega),
    getFromQuantized_native project c.face_lt (show c.qx + 1 ≤ K by omega)
      (show c.qy ≤ K by omega),
    getFromQuantized_native project c.face_lt (show c.qx + 1 ≤ K by omega)
      (show c.qy + 1 ≤ K by omega),
    getFromQuantized_native project c.face_lt (show c.qx ≤ K by omega)
      (show c.qy + 1 ≤ K by omega), hx', hy']

theorem getCellCorners_typescript (c : Cell) :
    getCellCorners none project c.face c.qx c.qy 1
      = [project c.face c.qx c.qy, project c.face (c.qx + 1) c.qy,
        project c.face (c.qx + 1) (c.qy + 1), project c.face c.qx (c.qy + 1)] := rfl

/-- A cell's bounds are a function of its corners. -/
theorem getCellBounds_congr {core core' : Option AgidWasmExports} {face : ℤ} {x y step : ℚ}
    (h : getCellCorners core project face x y step = getCellCorners core' project face x y step) :
    getCellBounds core project face x y step = getCellBounds core' project face x y step := by
  simp only [getCellBounds, getAdjustedCellCorners, h]

end Cores

/-- Whatever the projection, both cores give the cell the same corners and the same bounds, and
the corners are distinct where the projection keeps the places of the face apart. -/
def CornersAgree (c : Cell) : Prop :=
  ∀ project : ℤ → ℚ → ℚ → LatLon,
    let native := some (agidCore project)
    getCellCorners native project c.face c.qx c.qy 1 = getCellCorners none project c.face c.qx c.qy 1
      ∧ getCellBounds native project c.face c.qx c.qy 1
        = getCellBounds none project c.face c.qx c.qy 1
      ∧ ((∀ x y x' y', project c.face x y = project c.face x' y' → x = x' ∧ y = y') →
        (getCellCorners native project c.face c.qx c.qy 1).Nodup
          ∧ (getCellCorners none project c.face c.qx c.qy 1).Nodup)

theorem corners_nodup {project : ℤ → ℚ → ℚ → LatLon} {c : Cell}
    (h : ∀ x y x' y', project c.face x y = project c.face x' y' → x = x' ∧ y = y') :
    (getCellCorners none project c.face c.qx c.qy 1).Nodup := by
  have hne : ∀ x y x' y', ¬ (x = x' ∧ y = y') → project c.face x y ≠ project c.face x' y' :=
    fun x y x' y' hxy he => hxy (h x y x' y' he)
  rw [getCellCorners_typescript]
  simp only [List.nodup_cons, List.mem_cons, List.not_mem_nil, or_false, not_or, not_false_eq_true,
    List.nodup_nil, and_true]
  exact ⟨⟨hne _ _ _ _ (by simp), hne _ _ _ _ (by simp), hne _ _ _ _ (by simp)⟩,
    ⟨hne _ _ _ _ (by simp), hne _ _ _ _ (by simp)⟩, hne _ _ _ _ (by simp)⟩

/-- The cores agree on exactly the cells off the last row and the last column of a face. -/
theorem cornersAgree_iff (c : Cell) : CornersAgree c ↔ c.qx + 1 < K ∧ c.qy + 1 < K := by
  have hx := c.qx_lt
  have hy := c.qy_lt
  constructor
  · intro h
    have h1 := (h fun _ x y => ⟨x, y⟩).1
    rw [getCellCorners_native, getCellCorners_typescript] at h1
    simp only [List.cons.injEq, LatLon.mk.injEq] at h1
    obtain ⟨-, ⟨h2, -⟩, ⟨-, h3⟩, -⟩ := h1
    have h2' : min (c.qx + 1) (K - 1) = c.qx + 1 := by exact_mod_cast h2
    have h3' : min (c.qy + 1) (K - 1) = c.qy + 1 := by exact_mod_cast h3
    omega
  · rintro ⟨h1, h2⟩ project
    have hc : getCellCorners (some (agidCore project)) project c.face c.qx c.qy 1
        = getCellCorners none project c.face c.qx c.qy 1 := by
      rw [getCellCorners_native, getCellCorners_typescript,
        show min (c.qx + 1) (K - 1) = c.qx + 1 by omega,
        show min (c.qy + 1) (K - 1) = c.qy + 1 by omega]
      push_cast
      rfl
    refine ⟨hc, getCellBounds_congr project hc, fun hinj => ?_⟩
    rw [hc]
    exact ⟨corners_nodup hinj, corners_nodup hinj⟩

/-- The last cell of face 0's first row. -/
def lastColumnCell : Cell := ⟨0, 2097151, 0, by decide, by decide, by decide⟩

theorem lastColumnCell_disagree : ¬ CornersAgree lastColumnCell := by
  intro h
  have h1 := ((h fun _ x y => ⟨x, y⟩).2.2 (by simp)).1
  rw [getCellCorners_native] at h1
  simp [lastColumnCell, K_eq] at h1

end Agid
