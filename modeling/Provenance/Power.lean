/-!
# Powers

A power with a natural exponent is the one of the standard library, also in a module that imports
another library with powers of its own.
-/

attribute [default_instance 20000, instance (2000)] instPowNat
