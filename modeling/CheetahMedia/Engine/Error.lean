namespace CheetahMedia.Engine

inductive SdkError
  | notFound (what : String)
  | conflict (what : String)

end CheetahMedia.Engine
