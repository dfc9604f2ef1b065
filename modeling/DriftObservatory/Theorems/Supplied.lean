import DriftObservatory.Theorems.Strictness

/-! Supplied members: which optional members of an accepted policy or observation are read as exactly what they say.
    Three readers let one slip: a signed reader passes over what exceeds its range, an unsigned reader over what is
    negative, and an enumeration is compared as a C string. -/

namespace DriftObservatory

open Json Outcome

/-! ### What a member says -/

section Member
variable {M : Members} {name what : String} {v : Value} {n : Int} {P Q : Value → Prop}

end Member

/-! ### Enumerations -/

section Enumeration
variable {M : Members} {name what : String} {α : Type} {parse : Text → Option α} {spell : α → Text} {failure : Status}

end Enumeration

/-! ### What a policy says -/

section Policy
variable {limits : RuntimeLimits} {M : Members} {v : Value} {what name : String}

end Policy

/-! ### What an observation says -/

section Observation
variable {limits : RuntimeLimits} {M : Members} {v : Value} {what name : String}

end Observation

namespace Sample

end Sample

end DriftObservatory
