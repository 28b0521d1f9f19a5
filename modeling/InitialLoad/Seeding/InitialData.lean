import InitialLoad.Entity.Basic

/-!
# The initial data

The apps and users that a fresh database receives, in the order of insertion.
-/

namespace InitialLoad.Seeding

/-- The first user, a copy of whom holds the right on the first app. -/
def arnold : User := ⟨1, "Arnold", some 72, "John Connor"⟩

/-- The initial apps. -/
def initialApps : List App :=
  [⟨2, "Arnold's App", 3, [⟨"OWNER", arnold⟩]⟩,
   ⟨1, "First App for everyone", 1, []⟩,
   ⟨3, "Famous App", 5, []⟩]

/-- The initial users. -/
def initialUsers : List User :=
  [arnold,
   ⟨2, "Kevin", some 21, "Kevin"⟩,
   ⟨3, "Anyone", none, "Anyone"⟩,
   ⟨4, "Torben", some 42, "Daniel"⟩]

end InitialLoad.Seeding
