/-!
# Powers of natural numbers

A power of natural numbers is the one of the core library, also where further algebra
offers another, so that it means the same in every module.
-/

attribute [instance (1100), default_instance (10100)] instPowNat
