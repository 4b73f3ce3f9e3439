namespace SqlCompose

structure Diagnostic where
  -- Absent where the wording belongs to a lower layer (file system, document reader).
  message : Option String
  code : String
  help : String
  deriving DecidableEq, Repr

end SqlCompose
