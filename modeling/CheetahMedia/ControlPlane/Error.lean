namespace CheetahMedia.ControlPlane

/-- The codes of the media errors that they pass on. -/
inductive MediaErrorCode
  | invalidArgument | staleOwner | cursorExpired
deriving DecidableEq

/-- The errors of the control plane that the modelled operations return. -/
inductive ControlPlaneError
  | permissionDenied (message : String)
  | conflict (message : String)
  | invalidArgument (message : String)
  | notFound (message : String)
  | db (message : String)
  | unavailable (message : String)
  | media (code : MediaErrorCode) (message : String)
deriving DecidableEq

end CheetahMedia.ControlPlane
