import FormRules.Outcome
import FormRules.Proofs.OrderedMap.Algebra
import FormRules.Settings.Toml

/-!
# Taking named values

Settings are made by taking named values one after the other, each into the settings that the ones
before have left; the first that is refused is the fault. Nothing is said here of which settings there
are. What is needed of the single step is

* that names of no setting are passed over (`takeAll_restrict`),
* that whether a value is taken does not hang on the values before (`Steady`), and
* that a setting is given by the value under its own name and by no other one (`Slot`).

Then a setting is, at the end, the value that stands under its name, or what it was at the beginning
(`Slot.written`), and entries with distinct names may be taken in any order (`Slot.eq_of_perm`). A step
that looks for one name after the other (`taking`) is steady, and has a slot for each name.
-/

namespace FormRules.Settings

open Toml (Node Entries Fault)

variable {σ β : Type} {set : Text → Node → σ → Except Fault σ}

/-- The settings after taking named values, one after the other. -/
def takeAll (set : Text → Node → σ → Except Fault σ) (es : Entries) (s : σ) : Except Fault σ :=
  es.foldlM (fun s e => set e.1 e.2 s) s

theorem takeAll_cons (e : Text × Node) (es : Entries) (s : σ) :
    takeAll set (e :: es) s = set e.1 e.2 s >>= takeAll set es := List.foldlM_cons

theorem takeAll_cons_eq_ok_iff {e : Text × Node} {es : Entries} {s s' : σ} :
    takeAll set (e :: es) s = .ok s' ↔
      ∃ s₁, set e.1 e.2 s = .ok s₁ ∧ takeAll set es s₁ = .ok s' := by
  rw [takeAll_cons, Outcome.bind_eq_ok_iff]

/-! ### Names that are passed over -/

/-- The entries under some names. -/
def restrict (names : List Text) (es : Entries) : Entries := es.filter fun e => e.1 ∈ names

/-- Values that are passed over may be left out: what comes of the others, settings or a fault, is the
same. -/
theorem takeAll_restrict {names : List Text}
    (hidle : ∀ name v s, name ∉ names → set name v s = .ok s) (es : Entries) (s : σ) :
    takeAll set (restrict names es) s = takeAll set es s := by
  unfold restrict
  induction es generalizing s with
  | nil => rfl
  | cons e es ih =>
    by_cases hmem : e.1 ∈ names
    · rw [List.filter_cons_of_pos (by simpa using hmem), takeAll_cons, takeAll_cons]
      exact congrArg (set e.1 e.2 s >>= ·) (funext ih)
    · rw [List.filter_cons_of_neg (by simpa using hmem), takeAll_cons, hidle e.1 e.2 s hmem,
        Outcome.ok_bind, ih]

/-- Values may be changed in a way that no step notices. -/
theorem takeAll_map {change : Text → Node → Node}
    (hchange : ∀ name v s, set name (change name v) s = set name v s) (es : Entries) (s : σ) :
    takeAll set (es.map fun e => (e.1, change e.1 e.2)) s = takeAll set es s := by
  induction es generalizing s with
  | nil => rfl
  | cons e es ih =>
    rw [List.map_cons, takeAll_cons, takeAll_cons, hchange]
    exact congrArg (set e.1 e.2 s >>= ·) (funext ih)

/-! ### Values that are taken -/

/-- Whether a value is taken does not hang on the settings that it is taken into. -/
def Steady (set : Text → Node → σ → Except Fault σ) : Prop :=
  ∀ name v s₁ s₂ s, set name v s₁ = .ok s₂ → ∃ s', set name v s = .ok s'

/-- If all values are taken in one order, they are all taken in any other. -/
theorem Steady.exists_takeAll_perm (hsteady : Steady set) {es es' : Entries} (hperm : es.Perm es')
    {s s' : σ} (h : takeAll set es s = .ok s') : ∃ s', takeAll set es' s = .ok s' := by
  have htaken : ∀ e ∈ es, ∃ s₁ s₂, set e.1 e.2 s₁ = .ok s₂ := by
    clear hperm
    induction es generalizing s with
    | nil => exact List.forall_mem_nil _
    | cons e es ih =>
      obtain ⟨s₁, hs₁, hrest⟩ := takeAll_cons_eq_ok_iff.mp h
      exact List.forall_mem_cons.mpr ⟨⟨s, s₁, hs₁⟩, ih hrest⟩
  have htaken' : ∀ e ∈ es', ∃ s₁ s₂, set e.1 e.2 s₁ = .ok s₂ :=
    fun e he => htaken e (hperm.mem_iff.mpr he)
  clear hperm h htaken
  induction es' generalizing s with
  | nil => exact ⟨s, rfl⟩
  | cons e es' ih =>
    obtain ⟨⟨s₁, s₂, hs₂⟩, hrest⟩ := List.forall_mem_cons.mp htaken'
    obtain ⟨s₃, hs₃⟩ := hsteady e.1 e.2 s₁ s₂ s hs₂
    obtain ⟨s', hs'⟩ := ih (s := s₃) hrest
    exact ⟨s', takeAll_cons_eq_ok_iff.mpr ⟨s₃, hs₃, hs'⟩⟩

/-! ### Single settings -/

/-- A setting has a name: it is given by the value under that name, and by no other one. -/
structure Slot (set : Text → Node → σ → Except Fault σ) (name : Text) (get : σ → β)
    (read : Node → Except Fault β) : Prop where
  /-- The value under the name is read as the setting. -/
  own : ∀ {v s s'}, set name v s = .ok s' → read v = .ok (get s')
  /-- A value under another name leaves the setting as it is. -/
  other : ∀ {name' v s s'}, name' ≠ name → set name' v s = .ok s' → get s' = get s

/-- What a setting is, by the value that is written for it: what is read from that, or, if none is
written, what it was before. -/
def Written (read : Node → Except Fault β) (before after : β) : Option Node → Prop
  | none => after = before
  | some v => read v = .ok after

/-- What is written tells what a setting is. -/
theorem Written.unique {read : Node → Except Fault β} {before b b' : β} {v? : Option Node}
    (h : Written read before b v?) (h' : Written read before b' v?) : b = b' := by
  cases v? with
  | none => exact Eq.trans h (Eq.symm h')
  | some v => exact Except.ok.inj (Eq.trans (Eq.symm h) h')

variable {name : Text} {get : σ → β} {read : Node → Except Fault β}

/-- After all values are taken, a setting is what is written under its name. -/
theorem Slot.written (hslot : Slot set name get read) {es : Entries}
    (hnames : (es.map Prod.fst).Nodup) {s s' : σ} (h : takeAll set es s = .ok s') :
    Written read (get s) (get s') (es.lookup name) := by
  induction es generalizing s with
  | nil =>
    cases h
    exact rfl
  | cons e es ih =>
    obtain ⟨name', v⟩ := e
    rw [List.map_cons, List.nodup_cons] at hnames
    obtain ⟨s₁, hs₁, hrest⟩ := takeAll_cons_eq_ok_iff.mp h
    have hlater := ih hnames.2 hrest
    rw [OrderedMap.lookup_cons_eq_if]
    by_cases hname : name' = name
    · -- the name does not come again, so the setting stays what it is now
      subst hname
      rw [OrderedMap.lookup_eq_none_iff_notMem.mpr hnames.1] at hlater
      rw [if_pos rfl, show get s' = get s₁ from hlater]
      exact hslot.own hs₁
    · rw [if_neg hname, ← hslot.other hname hs₁]
      exact hlater

/-- Whatever the order of entries with distinct names, a setting is the same at the end. -/
theorem Slot.eq_of_perm (hslot : Slot set name get read) {es es' : Entries} (hperm : es.Perm es')
    (hnames : (es.map Prod.fst).Nodup) {s s₁ s₂ : σ} (h₁ : takeAll set es s = .ok s₁)
    (h₂ : takeAll set es' s = .ok s₂) : get s₂ = get s₁ := by
  have hwritten := hslot.written ((hperm.map Prod.fst).nodup_iff.mp hnames) h₂
  rw [OrderedMap.lookup_perm hperm hnames] at hwritten
  exact hwritten.unique (hslot.written hnames h₁)

/-! ### Looking for one name after the other -/

/-- Passes over every value. -/
def passing : Text → Node → σ → Except Fault σ := fun _ _ s => .ok s

/-- Takes the value under a name, put where it belongs as it is read; any other value is taken by
another step. -/
def taking (key : Text) (read : Node → Except Fault β) (put : σ → β → σ)
    (set : Text → Node → σ → Except Fault σ) : Text → Node → σ → Except Fault σ :=
  fun name v s => if name = key then (read v).map (put s) else set name v s

/-- No value changes a setting. -/
def Spares (set : Text → Node → σ → Except Fault σ) (get : σ → β) : Prop :=
  ∀ name v s s', set name v s = .ok s' → get s' = get s

section Looking

variable {γ : Type} {key : Text} {put : σ → β → σ} {readOther : Node → Except Fault γ}
  {putOther : σ → γ → σ}

theorem taking_self (v : Node) (s : σ) : taking key read put set key v s = (read v).map (put s) :=
  if_pos rfl

theorem taking_of_ne (hname : name ≠ key) (v : Node) (s : σ) :
    taking key read put set name v s = set name v s := if_neg hname

theorem steady_passing : Steady (passing (σ := σ)) := fun _ _ _ _ s _ => ⟨s, rfl⟩

theorem Steady.taking (hset : Steady set) : Steady (taking key read put set) := by
  intro name v s₁ s₂ s h
  by_cases hname : name = key
  · subst hname
    rw [taking_self] at h ⊢
    obtain ⟨b, hb, -⟩ := Outcome.map_eq_ok_iff.mp h
    rw [hb]
    exact ⟨put s b, rfl⟩
  · rw [taking_of_ne hname] at h ⊢
    exact hset name v s₁ s₂ s h

theorem spares_passing : Spares passing get := by
  intro name v s s' h
  cases h
  rfl

theorem Spares.taking (hset : Spares set get) (hput : ∀ s c, get (putOther s c) = get s) :
    Spares (taking key readOther putOther set) get := by
  intro name v s s' h
  by_cases hname : name = key
  · subst hname
    rw [taking_self] at h
    obtain ⟨c, -, rfl⟩ := Outcome.map_eq_ok_iff.mp h
    exact hput s c
  · rw [taking_of_ne hname] at h
    exact hset name v s s' h

/-- The name that is looked for first has its slot there, if the rest leaves the setting alone. -/
theorem Slot.here (hput : ∀ s b, get (put s b) = b) (hset : Spares set get) :
    Slot (taking name read put set) name get read where
  own {v s s'} h := by
    rw [taking_self] at h
    obtain ⟨b, hb, rfl⟩ := Outcome.map_eq_ok_iff.mp h
    rw [hb, hput]
  other hname h := by
    rw [taking_of_ne hname] at h
    exact hset _ _ _ _ h

/-- A name that is looked for later has its slot there, if the first name leaves the setting alone. -/
theorem Slot.there (hname : name ≠ key) (hput : ∀ s c, get (putOther s c) = get s)
    (hslot : Slot set name get read) : Slot (taking key readOther putOther set) name get read where
  own h := by
    rw [taking_of_ne hname] at h
    exact hslot.own h
  other {name' v s s'} hname' h := by
    by_cases hkey : name' = key
    · subst hkey
      rw [taking_self] at h
      obtain ⟨c, -, rfl⟩ := Outcome.map_eq_ok_iff.mp h
      exact hput s c
    · rw [taking_of_ne hkey] at h
      exact hslot.other hname' h

end Looking

end FormRules.Settings
